/-
# Groups, versions, kinds and resources

A kind is named by group, version and kind, and its collection by group,
version and resource. Group and version together are written as one text, of
which the core group shows the version alone.

Key definitions: `GroupVersion`, `GroupVersionKind`, `GroupVersionResource`,
`GroupVersion.parse`, `versionText`.
-/
import ClusterKit.Table

namespace ClusterKit

/-- The written form of a group and a version. -/
def versionText (group version : String) : String :=
  if group.isEmpty then version else group ++ "/" ++ version

/-- A version of a group of kinds; the core group has the empty name. -/
structure GroupVersion where
  group : String
  version : String
  deriving DecidableEq, Repr

/-- A kind in a version of a group. -/
structure GroupVersionKind where
  group : String
  version : String
  kind : String
  deriving DecidableEq, Repr

/-- A collection in a version of a group. -/
structure GroupVersionResource where
  group : String
  version : String
  resource : String
  deriving DecidableEq, Repr

namespace GroupVersion

/-- The written form. -/
def text (gv : GroupVersion) : String :=
  versionText gv.group gv.version

/-- The kind of a name in this version. -/
def withKind (gv : GroupVersion) (kind : String) : GroupVersionKind :=
  ⟨gv.group, gv.version, kind⟩

/-- Read the written form: what stands before the first slash is the group, and
neither part is empty. -/
def parse (s : String) : Option GroupVersion :=
  let group := s.toList.takeWhile (· != '/')
  match s.toList.dropWhile (· != '/') with
  | [] => if s.isEmpty then none else some ⟨"", s⟩
  | _ :: version =>
    if group.isEmpty || version.isEmpty then none
    else some ⟨String.ofList group, String.ofList version⟩

/-- What is said of a text that is no written form. -/
def parseFailure (s : String) : String :=
  "failed to parse group version: " ++ s

end GroupVersion

namespace GroupVersionKind

/-- The written form of group and version. -/
def apiVersion (k : GroupVersionKind) : String :=
  versionText k.group k.version

end GroupVersionKind

namespace GroupVersionResource

/-- The written form of group and version. -/
def apiVersion (r : GroupVersionResource) : String :=
  versionText r.group r.version

/-- The written form, from the resource up to the group. -/
def text (r : GroupVersionResource) : String :=
  if r.group.isEmpty then s!"{r.resource}.{r.version}"
  else s!"{r.resource}.{r.version}.{r.group}"

/-- The resource within its group, as messages name it. -/
def inGroup (r : GroupVersionResource) : String :=
  if r.group.isEmpty then r.resource else s!"{r.resource}.{r.group}"

/-- Resources are ordered by group, then version, then name. -/
instance : Ord GroupVersionResource :=
  ⟨compareLex (compareOn (·.group)) (compareLex (compareOn (·.version)) (compareOn (·.resource)))⟩

instance : Std.TransOrd GroupVersionResource :=
  inferInstanceAs (Std.TransCmp (compareLex _ _))

instance : Std.LawfulEqOrd GroupVersionResource where
  eq_of_compare {a b} h := by
    obtain ⟨h₁, h₂⟩ := compareLex_eq_eq.mp (show compareLex _ _ a b = .eq from h)
    obtain ⟨h₂, h₃⟩ := compareLex_eq_eq.mp h₂
    cases a
    cases b
    congr
    · exact Std.LawfulEqCmp.eq_of_compare h₁
    · exact Std.LawfulEqCmp.eq_of_compare h₂
    · exact Std.LawfulEqCmp.eq_of_compare h₃

end GroupVersionResource
end ClusterKit
