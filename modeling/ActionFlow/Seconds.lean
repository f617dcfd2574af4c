import ActionFlow.Failure

/-!
# Spans of time

A span of time is given in seconds by a configuration value, which is not looked at before the span
is needed. Until then it is kept as it was given, because a message shows it that way.
-/

namespace ActionFlow
namespace Value

/-- The number of seconds that a value stands for. A truth counts as one second or none; a whole
number that is too large for binary64 overflows, and what is no number is of the wrong kind. -/
def seconds : Value → Except Failure Binary64
  | bool truth => .ok (.ofInt (if truth then 1 else 0))
  | int number =>
      match Binary64.ofInt number with
      | .infinite _ => .error .overflow
      | span => .ok span
  | real number => .ok number
  | _ => .error .wrongKind

/-- The number of seconds to pause. No pause is shorter than none, so whole numbers below zero never
overflow. -/
def pauseSeconds : Value → Except Failure Binary64
  | int number => if number ≤ 0 then .ok .zero else seconds (int number)
  | value => seconds value

end Value
end ActionFlow
