/-!
# The version

The version of the program, as it reports it itself.
-/

namespace AttributeViews

/-- The version of the program. -/
def version : String := "0.4.0"

end AttributeViews
