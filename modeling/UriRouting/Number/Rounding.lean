/-! # Rounding quotients -/

set_option autoImplicit false

namespace UriRouting.Number

def roundToEven (num den : Nat) : Nat :=
  let quotient := num / den
  match compare (2 * (num % den)) den with
  | .lt => quotient
  | .gt => quotient + 1
  | .eq => quotient + quotient % 2

end UriRouting.Number
