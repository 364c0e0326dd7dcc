/-!
# Words for truth values
-/

namespace ScimDirectory.Text

/-- The word of a truth value. -/
def truth (b : Bool) : String := if b then "true" else "false"

end ScimDirectory.Text
