/-!
# Values of configuration files

What a file in TOML holds. Floats and times have no use here but to be told from other values, so
they keep their written text.
-/

namespace SqlGuard.Toml

/-- A value. The entries of a table have distinct keys and are in the order of the file. -/
inductive Value where
  | string (text : String)
  | integer (value : Int)
  | float (text : String)
  | boolean (value : Bool)
  | time (text : String)
  | array (elements : List Value)
  | table (entries : List (String × Value))
  deriving Repr

end SqlGuard.Toml
