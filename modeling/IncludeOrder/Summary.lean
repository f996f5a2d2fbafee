import IncludeOrder.Addition

/-!
# Summaries

The three numbers a run ends with, and the status it exits with.
-/

set_option autoImplicit false

namespace IncludeOrder

/-- What a run over several files comes to. -/
structure Summary where
  filesScanned : Nat
  filesSkipped : Nat
  violations : Nat
  deriving DecidableEq, Repr, Inhabited

namespace Summary

/-- The summary of no file. -/
def zero : Summary := ⟨0, 0, 0⟩

/-! ## Counting files -/

section Counting

variable {m : Type → Type} [Monad m] (add : Addition m)

/-- One more file, scanned with so many violations. -/
def countScannedWith (s : Summary) (violations : Nat) : m Summary := do
  let filesScanned ← add s.filesScanned 1
  let violations ← add s.violations violations
  return { s with filesScanned, violations }

/-- One more file, left out. -/
def countSkippedWith (s : Summary) : m Summary := do
  let filesSkipped ← add s.filesSkipped 1
  return { s with filesSkipped }

end Counting

/-- One more file, scanned with so many violations. -/
def countScanned (s : Summary) (violations : Nat) : Summary :=
  (s.countScannedWith .exactly violations).run

/-- One more file, left out. -/
def countSkipped (s : Summary) : Summary := (s.countSkippedWith .exactly).run

theorem countScanned_eq (s : Summary) (violations : Nat) :
    s.countScanned violations
      = { s with filesScanned := s.filesScanned + 1, violations := s.violations + violations } :=
  rfl

theorem countSkipped_eq (s : Summary) :
    s.countSkipped = { s with filesSkipped := s.filesSkipped + 1 } := rfl

/-! ## The exit status -/

/-- No header is out of order. -/
def isClean (s : Summary) : Bool := s.violations == 0

/-- The greatest word that a run exits with. -/
def maxExitWord : Int32 := 255

/-- The number as a signed word of 32 bits; from `2 ^ 31` on there is none. -/
def signedWord? (n : Nat) : Option Int32 :=
  if n < 0x80000000 then some (Int32.ofNat n) else none

/-- The word that a run exits with: the number of violations, or the greatest word when that number
is greater or no word at all. -/
def exitWord (s : Summary) : Int32 :=
  min ((signedWord? s.violations).getD maxExitWord) maxExitWord

/-- The greatest exit status of a run. -/
def maxExitStatus : Nat := maxExitWord.toNatClampNeg

/-- The exit status of a run as a number. -/
def exitStatus (s : Summary) : Nat := s.exitWord.toNatClampNeg

theorem toInt_maxExitWord : maxExitWord.toInt = 255 := by decide

theorem toInt_min_maxExitWord (word : Int32) :
    (min word maxExitWord).toInt = min word.toInt 255 := by
  have hmin : min word maxExitWord = if word ≤ maxExitWord then word else maxExitWord := rfl
  have hle : word ≤ maxExitWord ↔ word.toInt ≤ 255 := by
    rw [Int32.le_iff_toInt_le, toInt_maxExitWord]
  by_cases h : word ≤ maxExitWord
  · rw [hmin, if_pos h, Int.min_eq_left (hle.mp h)]
  · rw [hmin, if_neg h, toInt_maxExitWord]
    rw [hle] at h
    omega

/-- The conversion loses nothing: a number that is no word is beyond the greatest one. -/
theorem toInt_exitWord (s : Summary) : s.exitWord.toInt = (min s.violations 255 : Nat) := by
  rw [exitWord, toInt_min_maxExitWord]
  by_cases hword : s.violations < 0x80000000
  · rw [signedWord?, if_pos hword, Option.getD_some, Int32.toInt_ofNat_of_lt hword]
    omega
  · rw [signedWord?, if_neg hword, Option.getD_none, toInt_maxExitWord]
    omega

theorem exitStatus_eq_min (s : Summary) : s.exitStatus = min s.violations 255 := by
  rw [exitStatus, Int32.toNatClampNeg, toInt_exitWord, Int.toNat_natCast]

/-- So many violations that no word counts them. -/
example : signedWord? 0x80000000 = none ∧ exitStatus ⟨1, 0, 0x80000000⟩ = 255 := by decide

theorem exitStatus_eq_zero_iff (s : Summary) : s.exitStatus = 0 ↔ s.isClean = true := by
  rw [exitStatus_eq_min, isClean, beq_iff_eq]
  omega

end Summary

end IncludeOrder
