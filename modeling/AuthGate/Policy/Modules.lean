set_option autoImplicit false

/-! # Policy modules

A policy is a set of modules, each the text of one file. -/

namespace AuthGate.Policy

/-- The modules of a policy: their sources by name, sorted. -/
abbrev Modules := List (String × String)

end AuthGate.Policy
