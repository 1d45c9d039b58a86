/-
# References

An object is referred to by its namespace, if it is in one, and its name. The
empty namespace and the absent one are the same.

Key definitions: `ObjectRef`, `ObjectRef.within`, `ObjectRef.ofMeta`, `ObjectRef.text`.
-/
import ClusterKit.Object.Meta

namespace ClusterKit

/-- A reference to an object. -/
structure ObjectRef where
  ns : Option String
  name : String
  deriving DecidableEq, Repr

namespace ObjectRef

/-- A reference to an object outside of namespaces. -/
def named (name : String) : ObjectRef :=
  ⟨none, name⟩

/-- The reference in a namespace. -/
def within (r : ObjectRef) (ns : String) : ObjectRef :=
  { r with ns := if ns.isEmpty then none else some ns }

/-- The reference to the object with the given metadata; one without a name goes
by the empty name. -/
def ofMeta (m : ObjectMeta) : ObjectRef :=
  (named (m.name.getD "")).within (m.ns.getD "")

/-- The written form. -/
def text (r : ObjectRef) : String :=
  match r.ns with
  | some ns => ns ++ "/" ++ r.name
  | none => r.name

/-- References are ordered by namespace, none coming first, and then name. -/
instance : Ord ObjectRef :=
  ⟨compareLex (compareOn (·.ns)) (compareOn (·.name))⟩

instance : Std.TransOrd ObjectRef :=
  inferInstanceAs (Std.TransCmp (compareLex _ _))

instance : Std.LawfulEqOrd ObjectRef where
  eq_of_compare {a b} h := by
    obtain ⟨h₁, h₂⟩ := compareLex_eq_eq.mp (show compareLex _ _ a b = .eq from h)
    cases a
    cases b
    congr
    · exact Std.LawfulEqCmp.eq_of_compare h₁
    · exact Std.LawfulEqCmp.eq_of_compare h₂

end ObjectRef
end ClusterKit
