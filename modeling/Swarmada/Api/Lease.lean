import Swarmada.Transition.Versioned

namespace Swarmada.Api

inductive DecimalAnnotation where
  | absent
  | number (value : Nat)
  | text (value : String)
deriving DecidableEq, Repr

end Swarmada.Api
