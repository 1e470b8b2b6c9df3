import StyleProbe.Binary32.Basic

/-!
# Binary32 arithmetic

Products and quotients are the exact result, rounded once. Rounding to a
whole number sends a half away from zero.
-/

namespace StyleProbe.Binary32

/-- The product. Zero times infinity has no value. -/
def mul : Binary32 → Binary32 → Binary32
  | .nan, _ => .nan
  | _, .nan => .nan
  | .infinity a, .infinity b => .infinity (a != b)
  | .infinity a, .finite b k =>
    if k.val = 0 then .nan else .infinity (a != b)
  | .finite a k, .infinity b =>
    if k.val = 0 then .nan else .infinity (a != b)
  | .finite a j, .finite b k => ofQuotient (a != b) (quanta j * quanta k) one

/-- The quotient. Zero by zero and infinity by infinity have no value;
anything else by zero is infinite. -/
def div : Binary32 → Binary32 → Binary32
  | .nan, _ => .nan
  | _, .nan => .nan
  | .infinity _, .infinity _ => .nan
  | .infinity a, .finite b _ => .infinity (a != b)
  | .finite a _, .infinity b => .finite (a != b) ⟨0, rankCount_pos⟩
  | .finite a j, .finite b k =>
    if k.val = 0 then
      if j.val = 0 then .nan else .infinity (a != b)
    else ofQuotient (a != b) (quanta j * one) (quanta k)

/-- The nearest whole number; a half goes away from zero, and the sign is
kept. -/
def round : Binary32 → Binary32
  | .finite negative k =>
    ofQuotient negative ((quanta k + one / 2) / one * one) 1
  | x => x

/-- The whole part of `x` as a byte; what lies outside the bytes is moved to
the nearer end, and a NaN is 0. -/
def toByte : Binary32 → Fin 256
  | .finite false k => ⟨min (quanta k / one) 255, by omega⟩
  | .infinity false => ⟨255, by omega⟩
  | _ => ⟨0, by omega⟩

end StyleProbe.Binary32
