/-!
# Diagnostics

Every error of the library is a cause with two descriptions: a short name, by which a program tells
the causes apart, and a text for people.
-/

namespace InstrumentBus

/-- A type of errors that can be reported. -/
class Diagnostic (ε : Type) where
  name : ε → String
  message : ε → String

end InstrumentBus
