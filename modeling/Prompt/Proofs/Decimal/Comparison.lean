import Mathlib.Data.Int.Order.Basic
import Mathlib.Data.Prod.Lex
import Mathlib.Order.Compare

/-!
# Comparing finite doubles

Finite doubles are compared as a linear order does: by sign, then by exponent, then by significand
(`lt_iff_level`, `le_iff_level`). The two zeros are level.
-/

namespace Prompt.Decimal
open Float.Model Float.Model.UnpackedFloat

/-- Where a finite number stands. A negative number stands the lower the greater its size is. -/
def levelOf : UnpackedFloat → ℤ ×ₗ ℤ ×ₗ ℤ
  | .finite .negative m e _ => toLex (-1, toLex (-e, -m))
  | .finite .positive m e _ => toLex (1, toLex (e, m))
  | _ => toLex (0, toLex (0, 0))

def level (x : Float) : ℤ ×ₗ ℤ ×ₗ ℤ := levelOf x.toModel.unpack

theorem compares_then {α β : Type} [LinearOrder α] [LinearOrder β] {o p : Ordering} {a b : α} {c d : β}
    (first : o.Compares a b) (second : p.Compares c d) :
    (o.then p).Compares (toLex (a, c)) (toLex (b, d)) := by
  cases o with
  | lt => exact Prod.Lex.toLex_lt_toLex.2 (.inl first)
  | gt => exact Prod.Lex.toLex_lt_toLex.2 (.inl first)
  | eq =>
      obtain rfl : a = b := first
      cases p with
      | lt => exact Prod.Lex.toLex_lt_toLex.2 (.inr ⟨rfl, second⟩)
      | gt => exact Prod.Lex.toLex_lt_toLex.2 (.inr ⟨rfl, second⟩)
      | eq => exact congrArg (fun c => toLex (a, c)) second

section Size
variable (e k : ℤ) (m n : ℕ)

theorem compares_cast : (compare m n).Compares (m : ℤ) n := by
  have kept : StrictMono fun i : ℕ => (i : ℤ) := fun _ _ less => Int.ofNat_lt.2 less
  exact kept.compares.2 ((compare_iff m n).1 rfl)

/-- Without sign, exponents are compared before significands. -/
theorem compares_size : ((compare e k).then (compare m n)).Compares (toLex (e, (m : ℤ))) (toLex (k, (n : ℤ))) :=
  compares_then ((compare_iff e k).1 rfl) (compares_cast m n)

theorem compares_size_neg :
    ((compare e k).then (compare m n)).Compares (toLex (-k, -(n : ℤ))) (toLex (-e, -(m : ℤ))) := by
  have turned : StrictAnti fun i : ℤ => -i := fun _ _ less => Int.neg_lt_neg less
  exact compares_then (turned.compares.2 ((compare_iff e k).1 rfl)) (turned.compares.2 (compares_cast m n))

end Size

theorem compares_levelOf {f g : UnpackedFloat} (hf : f.isFinite = true) (hg : g.isFinite = true) :
    ∃ o : Ordering, f.compare g = some o ∧ o.Compares (levelOf f) (levelOf g) := by
  have below {a b : ℤ ×ₗ ℤ} {i j : ℤ} (less : i < j) : toLex (i, a) < toLex (j, b) :=
    Prod.Lex.toLex_lt_toLex.2 (.inl less)
  cases f with
  | infinity sign => cases hf
  | notANumber => cases hf
  | zero sign =>
      cases g with
      | infinity sign' => cases hg
      | notANumber => cases hg
      | zero sign' => exact ⟨.eq, rfl, rfl⟩
      | finite sign' n k pos' =>
          cases sign' with
          | negative => exact ⟨.gt, rfl, below (by decide)⟩
          | positive => exact ⟨.lt, rfl, below (by decide)⟩
  | finite sign m e pos =>
      cases g with
      | infinity sign' => cases hg
      | notANumber => cases hg
      | zero sign' =>
          cases sign with
          | negative => exact ⟨.lt, rfl, below (by decide)⟩
          | positive => exact ⟨.gt, rfl, below (by decide)⟩
      | finite sign' n k pos' =>
          cases sign with
          | negative =>
              cases sign' with
              | negative =>
                  exact ⟨_, rfl, compares_then (o := .eq) rfl
                    (Ordering.compares_swap.2 (compares_size_neg e k m n))⟩
              | positive => exact ⟨.lt, rfl, below (by decide)⟩
          | positive =>
              cases sign' with
              | negative => exact ⟨.gt, rfl, below (by decide)⟩
              | positive => exact ⟨_, rfl, compares_then (o := .eq) rfl (compares_size e k m n)⟩

section Finite
variable {x y : Float} (hx : x.isFinite = true) (hy : y.isFinite = true)
include hx hy

theorem lt_iff_level : x < y ↔ level x < level y := by
  obtain ⟨o, compared, compares⟩ := compares_levelOf hx hy
  change decide ((x.toModel.unpack.compare y.toModel.unpack == some .lt) = true) = true ↔ _
  rw [compared, decide_eq_true_iff, beq_iff_eq, Option.some_inj]
  exact compares.eq_lt

theorem le_iff_level : x ≤ y ↔ level x ≤ level y := by
  obtain ⟨o, compared, compares⟩ := compares_levelOf hx hy
  change decide ((x.toModel.unpack.compare y.toModel.unpack).any Ordering.isLE = true) = true ↔ _
  rw [compared, decide_eq_true_iff, Option.any_some, Ordering.isLE_iff_ne_gt]
  exact compares.ne_gt

end Finite

end Prompt.Decimal
