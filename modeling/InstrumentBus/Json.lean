/-!
# JSON values

The values that JSON text denotes. The type is a parameter of the texts in them: a value to be
written has `String`s, and a value that was read has `Option String`s, where `none` stands for a
string literal that is well formed but denotes no text. Members of an object keep their order and
their repetitions, so that whoever takes the value decides what those mean.
-/

namespace InstrumentBus

/-- A JSON value with texts of type `τ`. -/
inductive Json (τ : Type) where
  | null
  | bool (b : Bool)
  /-- A number written with digits alone. -/
  | natural (n : Nat)
  /-- Any other number, as it is written. -/
  | numeral (text : String)
  | string (s : τ)
  | array (items : List (Json τ))
  /-- A list of named values. -/
  | object (members : List (τ × Json τ))

namespace Json

variable {τ : Type}

/-- Whether every member has a name that denotes a text. -/
def readable (members : List (Option String × Json (Option String))) : Bool :=
  members.all fun m => m.1.isSome

/-- The values of the members with the given name. -/
def named (name : String) (members : List (Option String × Json (Option String))) :
    List (Json (Option String)) :=
  members.filterMap fun m => if m.1 = some name then some m.2 else none

/-- The value of the only member with the given name. -/
def required? (name : String) (members : List (Option String × Json (Option String))) :
    Option (Json (Option String)) :=
  match named name members with
  | [v] => some v
  | _ => none

/-- The value of the only member with the given name, if there is such a member; no result if there
are several. -/
def optional? (name : String) (members : List (Option String × Json (Option String))) :
    Option (Option (Json (Option String))) :=
  match named name members with
  | [] => some none
  | [v] => some (some v)
  | _ => none

/-- The number, if it is a natural number below `bound`. -/
def naturalBelow? (bound : Nat) : Json τ → Option Nat
  | .natural n => if n < bound then some n else none
  | _ => none

end Json

end InstrumentBus
