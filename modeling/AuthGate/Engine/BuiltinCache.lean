import AuthGate.Json.Basic

set_option autoImplicit false

/-! # The cache of builtin results

Results of builtins that all calls share, by the text of the call, up to a number of them. -/

namespace AuthGate

/-- Results by call, and how many may be kept. -/
structure BuiltinCache where
  maxEntries : Nat := 10000
  entries : List (String × Json) := []

namespace BuiltinCache

/-- The number of results. -/
def size (c : BuiltinCache) : Nat := c.entries.length

/-- Whether there are no results. -/
def isEmpty (c : BuiltinCache) : Bool := c.entries.isEmpty

end BuiltinCache

end AuthGate
