/-
# What an event carries

An event that is read has come with exactly one payload, and has read it as its
type says, whether the type stands before the payload or behind it. So an object
in an event has a type just if the payload has named it (`WatchEvent.types_of_reader`).

Key definitions: `WatchEvent.Carries`, `WatchEvent.Progress.Accounts`.
Key theorems: `WatchEvent.exists_payload`, `WatchEvent.types_of_reader`.
-/
import ClusterKit.Proofs.Wire.Names
import ClusterKit.Wire.Event

namespace ClusterKit

open Entries (valuesAt valuesAt_cons_self valuesAt_cons_of_ne)

theorem Json.Reader.ok_of_buffered {r : Json.Reader α} {d : Json.Draft} {a : α}
    (h : Json.Reader.buffered r d = .ok a) : r d = .ok a := by
  obtain ⟨v, -, h⟩ := bind_eq_ok.mp h
  cases hr : r d with
  | ok b =>
    rw [hr] at h
    exact h
  | error e =>
    rw [hr] at h
    cases h

namespace WatchEvent

variable {r : Json.Reader α}

/-- The draft of an event has the draft `d` of what the event carries. -/
def Carries (event d : Json.Draft) : Prop :=
  event.named "object" = [d] ∨ ∃ deep t close, event = .list deep [t, d] close

theorem type_of_payloadReader {t : EventType} {d : Json.Draft} {e : WatchEvent α}
    (h : payloadReader r t d = .ok e) : e.type = t := by
  cases t <;>
  · obtain ⟨x, -, he⟩ := bind_eq_ok.mp h
    cases he
    rfl

/-- How far an event has been read accounts for the payloads that have come. -/
def Progress.Accounts (r : Json.Reader α) (ds : List Json.Draft) : Progress α → Prop
  | .nothing => ds = []
  | .typed _ => ds = []
  | .held d => ds = [d]
  | .complete e => ∃ d, ds = [d] ∧ payloadReader r e.type d = .ok e

theorem accounts_takeMember {ds : List Json.Draft} {s s' : Progress α} {k : String}
    {d : Json.Draft} (hs : s.Accounts r ds) (h : takeMember r s k d = .ok s') :
    s'.Accounts r (ds ++ if k = "object" then [d] else []) := by
  unfold takeMember at h
  split at h
  · rename_i hk
    rw [if_neg (by rw [hk]; decide), List.append_nil]
    cases s with
    | nothing =>
      obtain ⟨t, -, h⟩ := bind_eq_ok.mp h
      cases h
      exact hs
    | typed t => cases h
    | held content =>
      obtain ⟨t, -, h⟩ := bind_eq_ok.mp h
      obtain ⟨e, he, h⟩ := bind_eq_ok.mp h
      cases h
      have hread := Json.Reader.ok_of_buffered he
      exact ⟨content, hs, (type_of_payloadReader hread).symm ▸ hread⟩
    | complete e => cases h
  · split at h
    · rename_i hk
      rw [if_pos hk]
      cases s with
      | nothing =>
        obtain ⟨v, -, h⟩ := bind_eq_ok.mp h
        cases h
        obtain rfl : ds = [] := hs
        exact rfl
      | typed t =>
        obtain ⟨e, he, h⟩ := bind_eq_ok.mp h
        cases h
        obtain rfl : ds = [] := hs
        exact ⟨d, rfl, (type_of_payloadReader he).symm ▸ he⟩
      | held content => cases h
      | complete e => cases h
    · rename_i hk
      rw [if_neg hk, List.append_nil]
      obtain ⟨u, -, h⟩ := bind_eq_ok.mp h
      cases h
      exact hs

theorem accounts_foldMembers {close : Option Json.ReadError}
    (ms : List (Json.Name × Json.Draft)) : ∀ {ds : List Json.Draft} {s s' : Progress α},
      s.Accounts r ds → Json.Reader.foldMembers (takeMember r) close ms s = .ok s' →
      s'.Accounts r (ds ++ valuesAt (.text "object") ms) := by
  induction ms with
  | nil =>
    intro ds s s' hs h
    cases close with
    | none =>
      cases h
      exact (List.append_nil ds).symm ▸ hs
    | some e => cases h
  | cons m ms ih =>
    intro ds s s' hs h
    obtain ⟨key, d⟩ := m
    obtain ⟨k, hk, h⟩ := bind_eq_ok.mp h
    obtain ⟨t, ht, h⟩ := bind_eq_ok.mp h
    have hrest := ih (accounts_takeMember hs ht) h
    cases key with
    | broken e => cases hk
    | text key =>
      obtain rfl := Except.ok.inj hk
      by_cases hobject : key = "object"
      · subst hobject
        rw [if_pos rfl, List.append_assoc] at hrest
        rw [valuesAt_cons_self]
        exact hrest
      · rw [if_neg hobject, List.append_nil] at hrest
        rw [valuesAt_cons_of_ne fun h => hobject (Json.Name.text.inj h)]
        exact hrest

theorem exists_payload_of_members {event : Json.Draft} {s : Progress α} {e : WatchEvent α}
    (hs : Json.Reader.members (takeMember r) .nothing event = .ok s)
    (h : (match s with
      | .complete e => Except.ok e
      | _ => .error Json.ReadError.mismatch) = .ok e) :
    ∃ d, Carries event d ∧ payloadReader r e.type d = .ok e := by
  cases s with
  | complete e' =>
    cases h
    cases event with
    | fields deep ms close =>
      cases deep with
      | true => cases hs
      | false =>
        obtain ⟨d, hd, he⟩ := accounts_foldMembers ms
          (show Progress.Accounts r [] .nothing from rfl) hs
        exact ⟨d, .inl hd, he⟩
    | scalar v => cases hs
    | broken name e skip => cases hs
    | list deep ds close => cases hs
  | _ => cases h

theorem exists_payload_of_parts {close : Option Json.ReadError} {ds : List Json.Draft}
    {e : WatchEvent α} (h : ofParts r close ds = .ok e) :
    ∃ t d, ds = [t, d] ∧ payloadReader r e.type d = .ok e := by
  cases ds with
  | nil => cases h
  | cons t ds =>
    obtain ⟨type, -, h⟩ := bind_eq_ok.mp h
    match ds, h with
    | [], h => cases h
    | [d], h =>
      obtain ⟨e', he, h⟩ := bind_eq_ok.mp h
      cases close with
      | none =>
        cases h
        exact ⟨t, d, rfl, (type_of_payloadReader he).symm ▸ he⟩
      | some e => cases h
    | d :: _ :: _, h =>
      obtain ⟨e', -, h⟩ := bind_eq_ok.mp h
      cases h

/-- An event that is read has one payload, which has been read as the event's type says. -/
theorem exists_payload {event : Json.Draft} {e : WatchEvent α} (h : reader r event = .ok e) :
    ∃ d, Carries event d ∧ payloadReader r e.type d = .ok e := by
  cases event with
  | list deep ds close =>
    cases deep with
    | true => cases h
    | false =>
      obtain ⟨t, d, rfl, he⟩ := exists_payload_of_parts h
      exact ⟨d, .inr ⟨_, _, _, rfl⟩, he⟩
  | _ =>
    obtain ⟨s, hs, h⟩ := bind_eq_ok.mp h
    exact exists_payload_of_members hs h

/-- An event has no payload but one. -/
theorem Carries.unique {event d d' : Json.Draft} (h : Carries event d) (h' : Carries event d') :
    d = d' := by
  rcases h with h | ⟨_, _, _, rfl⟩
  · rcases h' with h' | ⟨_, _, _, rfl⟩
    · exact (List.cons.inj (h.symm.trans h')).1
    · cases h
  · rcases h' with h' | ⟨_, _, _, h'⟩
    · cases h'
    · cases h'
      rfl

/-- The object in an event has a type just if the payload of the event names it. -/
theorem types_of_reader {event d : Json.Draft} {e : WatchEvent Erased} {o : Erased}
    (h : reader Erased.reader event = .ok e) (ho : e.object? = some o) (hd : Carries event d)
    (t : TypeMeta) : o.types = some t ↔ d.NamesType t := by
  obtain ⟨d', hd', he⟩ := exists_payload h
  obtain rfl := hd.unique hd'
  have hread : Erased.reader d = .ok o := by
    cases e with
    | bookmark b => cases ho
    | error s => cases ho
    | _ o' =>
      obtain ⟨o'', hread, he⟩ := bind_eq_ok.mp he
      cases he
      cases ho
      exact hread
  exact Erased.types_of_reader hread t

end WatchEvent
end ClusterKit
