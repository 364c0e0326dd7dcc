/-!
# Search in texts

Whether a run of characters occurs in another one.
-/

namespace ScimDirectory.Text

/-- Whether a run of characters occurs in another one. -/
def occursIn (needle : List Char) : List Char → Bool
  | [] => needle.isEmpty
  | c :: rest => needle.isPrefixOf (c :: rest) || occursIn needle rest

end ScimDirectory.Text
