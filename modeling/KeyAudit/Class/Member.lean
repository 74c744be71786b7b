import KeyAudit.Text.Quoted

namespace KeyAudit

/-!
# References to members of classes
-/

/-- A field or method of a class by name and descriptor. -/
structure Member where
  owner : Text
  name : Text
  descriptor : Text
  deriving Repr, DecidableEq

namespace Member

/-- Owner, a dot, name and descriptor. -/
def label (member : Member) : Text :=
  member.owner ++ "." ++ member.name ++ member.descriptor

end Member

end KeyAudit
