import Mathlib.Tactic.Common
import Prompt.Proofs.Decimal.Finite
import Prompt.Proofs.Json.RoundTrip

/-!
# What can be read

Whatever text is read, the value can be held, and its containers nest no deeper than the reader goes
(`within_of_read`). In particular every object has each of its keys once (`distinct_of_read`).
-/

namespace Prompt.Json
open Decimal

/-! ### Numbers -/

theorem absorb_lt {limit n : Nat} (less : n < limit) (digits : List Char) :
    (absorb limit n digits).1 < limit := by
  induction digits generalizing n with
  | nil => exact less
  | cons c rest ih =>
      rw [absorb]
      split
      · next fits => exact ih fits
      · exact less

theorem isFinite_signed {x : Float} (negative : Bool) (finite : x.isFinite = true) :
    (signed negative x).isFinite = true := by
  cases negative with
  | true => exact isFinite_neg finite
  | false => exact finite

theorem sound_ofScaled {negative : Bool} {n : Nat} {e : Int} {s rest : List Char} {x : Number}
    (reads : ofScaled negative n e s = .ok (x, rest)) : (num x).Sound := by
  rw [ofScaled] at reads
  split at reads
  · next scales =>
      cases reads
      exact .double (isFinite_signed negative (isFinite_of_ofScaled? scales))
  · cases reads

theorem sound_readExponent {negative : Bool} {n : Nat} {e : Int} {s rest : List Char} {x : Number}
    (reads : readExponent negative n e s = .ok (x, rest)) : (num x).Sound := by
  unfold readExponent at reads
  -- The sign makes no difference to what may follow it.
  split at reads
  all_goals
    dsimp only at reads
    split at reads
    · split at reads <;> cases reads
    · split at reads
      · exact sound_ofScaled reads
      · split at reads
        · cases reads
        · cases reads
          exact .double (isFinite_signed negative (by decide))

theorem sound_readAfterFraction {negative : Bool} {n : Nat} {e : Int} {s rest : List Char} {x : Number}
    (reads : readAfterFraction negative n e s = .ok (x, rest)) : (num x).Sound := by
  unfold readAfterFraction at reads
  split at reads
  · exact sound_readExponent reads
  · exact sound_readExponent reads
  · exact sound_ofScaled reads

theorem sound_readAfterWhole {negative : Bool} {whole s rest : List Char} {x : Number}
    (reads : readAfterWhole negative whole s = .ok (x, rest)) : (num x).Sound := by
  have fits : (absorb digitLimit 0 whole).1 < digitLimit := absorb_lt (by decide) whole
  have limit : digitLimit = 2 ^ 64 := rfl
  have half : Nat.pow 2 63 = 2 ^ 63 := rfl
  unfold readAfterWhole at reads
  dsimp only at reads
  split at reads
  · split at reads
    · split at reads <;> cases reads
    · exact sound_readAfterFraction reads
  · exact sound_readExponent reads
  · exact sound_readExponent reads
  · split at reads
    · split at reads
      · cases reads
        exact .int (by omega) (by omega)
      · split at reads
        · cases reads
          exact .double (isFinite_neg (isFinite_toFloat _))
        · cases reads
          exact .int (by omega) (by omega)
    · exact sound_ofScaled reads

theorem sound_readNumber {negative : Bool} {s rest : List Char} {x : Number}
    (reads : readNumber negative s = .ok (x, rest)) : (num x).Sound := by
  unfold readNumber at reads
  dsimp only at reads
  split at reads
  · split at reads <;> cases reads
  · cases reads
  · exact sound_readAfterWhole reads

/-! ### Distinct keys -/

/-- Every object has each of its keys once. -/
inductive Distinct : Json → Prop
  | null : Distinct null
  | bool (b : Bool) : Distinct (bool b)
  | num (n : Number) : Distinct (num n)
  | str (s : String) : Distinct (str s)
  | arr {xs : List Json} (items : ∀ x ∈ xs, Distinct x) : Distinct (arr xs)
  | obj {es : Entries Json} (once : es.keys.Nodup) (values : ∀ e ∈ es, Distinct e.2) : Distinct (obj es)

theorem Distinct.entries {es : Entries Json} (distinct : (Json.obj es).Distinct) :
    es.keys.Nodup ∧ ∀ {key : String} {j : Json}, es.get? key = some j → j.Distinct := by
  cases distinct with
  | obj once values => exact ⟨once, fun found => values _ ((Entries.get?_eq_some_iff once).1 found)⟩

theorem Sound.distinct {v : Json} (sound : v.Sound) : v.Distinct := by
  induction sound with
  | null => exact .null
  | bool b => exact .bool b
  | int least less => exact .num _
  | double finite => exact .num _
  | str s => exact .str s
  | arr items ih => exact .arr ih
  | obj once values ih => exact .obj once ih

/-! ### Parts of what was read -/

theorem readBoth_ok {α β γ : Type} {f : α → β → γ} {z : γ} {rest : List Char}
    {first : Except Failure (α × List Char)} {others : List Char → Except Failure (β × List Char)}
    (reads : readBoth f first others = .ok (z, rest)) :
    ∃ x s y, first = .ok (x, s) ∧ others s = .ok (y, rest) ∧ z = f x y := by
  simp only [readBoth, bind_eq_ok, Except.ok.injEq, Prod.mk.injEq, Prod.exists] at reads
  obtain ⟨x, s, head, y, t, tail, rfl, rfl⟩ := reads
  exact ⟨x, s, y, head, tail, rfl⟩

theorem readItems_ok {fuel depth : Nat} {first : Bool} {s rest : List Char} {xs : List Json}
    (reads : readItems (fuel + 1) depth first s = .ok (xs, rest)) :
    xs = [] ∨ ∃ t x u ys, readValue fuel depth t = .ok (x, u) ∧
      readItems fuel depth false u = .ok (ys, rest) ∧ xs = x :: ys := by
  rw [readItems] at reads
  have item {t : List Char} (reads : readBoth List.cons (readValue fuel depth t)
      (readItems fuel depth false) = .ok (xs, rest)) := readBoth_ok reads
  -- Each branch fails, ends the list or goes on with an item.
  repeat' split at reads
  all_goals first
    | (cases reads; done)
    | (cases reads; exact .inl rfl)
    | (obtain ⟨x, u, ys, head, tail, both⟩ := item reads; exact .inr ⟨_, x, u, ys, head, tail, both⟩)

theorem readUnder_ok {fuel depth : Nat} {key : String} {s rest : List Char} {es : List (String × Json)}
    (reads : readUnder fuel depth key s = .ok (es, rest)) :
    ∃ t x u fs, readValue fuel depth t = .ok (x, u) ∧
      readEntries fuel depth false u = .ok (fs, rest) ∧ es = (key, x) :: fs := by
  rw [readUnder] at reads
  split at reads
  · cases reads
  · obtain ⟨x, u, fs, head, tail, both⟩ := readBoth_ok reads
    exact ⟨_, x, u, fs, head, tail, both⟩
  · cases reads

theorem readEntry_ok {fuel depth : Nat} {s rest : List Char} {es : List (String × Json)}
    (reads : readEntry fuel depth s = .ok (es, rest)) :
    ∃ t key x u fs, readValue fuel depth t = .ok (x, u) ∧
      readEntries fuel depth false u = .ok (fs, rest) ∧ es = (key, x) :: fs := by
  cases named : readString s with
  | error failure => rw [readEntry, named] at reads; cases reads
  | ok part =>
      rw [readEntry, named] at reads
      obtain ⟨t, x, u, fs, parts⟩ := readUnder_ok reads
      exact ⟨t, part.1, x, u, fs, parts⟩

theorem readEntries_ok {fuel depth : Nat} {first : Bool} {s rest : List Char} {es : List (String × Json)}
    (reads : readEntries (fuel + 1) depth first s = .ok (es, rest)) :
    es = [] ∨ ∃ t, readEntry fuel depth t = .ok (es, rest) := by
  rw [readEntries] at reads
  repeat' split at reads
  all_goals first
    | (cases reads; done)
    | (cases reads; exact .inl rfl)
    | exact .inr ⟨_, reads⟩

theorem eq_of_readWord {word s rest : List Char} {value j : Json}
    (reads : readWord word value s = .ok (j, rest)) : j = value := by
  induction word generalizing s with
  | nil =>
      rw [readWord] at reads
      cases reads
      rfl
  | cons c word ih =>
      cases s with
      | nil => cases reads
      | cons d s =>
          rw [readWord] at reads
          split at reads
          · exact ih reads
          · cases reads

theorem readValue_ok {fuel depth : Nat} {s rest : List Char} {j : Json}
    (reads : readValue (fuel + 1) depth s = .ok (j, rest)) :
    (j.Sound ∧ j.nest = 0) ∨
    (∃ t xs, 1 < depth ∧ readItems fuel (depth - 1) true t = .ok (xs, rest) ∧ j = arr xs) ∨
    (∃ t es, 1 < depth ∧ readEntries fuel (depth - 1) true t = .ok (es, rest) ∧
      j = obj (Entries.ofList es)) := by
  rw [readValue] at reads
  repeat' split at reads
  all_goals first
    | (cases reads; done)
    | (cases reads; exact .inl ⟨.str _, rfl⟩)
    | (cases reads; exact .inl ⟨sound_readNumber ‹_›, rfl⟩)
    | (cases eq_of_readWord reads; exact .inl ⟨.null, rfl⟩)
    | (cases eq_of_readWord reads; exact .inl ⟨.bool _, rfl⟩)
    | (cases reads; exact .inr (.inl ⟨_, _, Nat.lt_of_not_le ‹_›, ‹_›, rfl⟩))
    | (cases reads; exact .inr (.inr ⟨_, _, Nat.lt_of_not_le ‹_›, ‹_›, rfl⟩))

theorem nestItems_lt {depth : Nat} (pos : 0 < depth) {xs : List Json} :
    nestItems xs < depth ↔ ∀ x ∈ xs, x.nest < depth := by
  induction xs with
  | nil => simpa [nestItems] using pos
  | cons x xs ih => rw [nestItems, max_lt_iff, ih, List.forall_mem_cons]

theorem nestEntries_lt {depth : Nat} (pos : 0 < depth) {es : List (String × Json)} :
    nestEntries es < depth ↔ ∀ e ∈ es, e.2.nest < depth := by
  induction es with
  | nil => simpa [nestEntries] using pos
  | cons e es ih => rw [nestEntries, max_lt_iff, ih, List.forall_mem_cons]

/-! ### Values -/

/-- It can be held, and fewer containers than that stand around its innermost part. -/
def Within (depth : Nat) (j : Json) : Prop := j.Sound ∧ j.nest < depth

theorem within_arr {depth : Nat} (pos : 0 < depth) {xs : List Json} :
    (arr xs).Within (depth + 1) ↔ ∀ x ∈ xs, x.Within depth := by
  have nested : (arr xs).nest < depth + 1 ↔ ∀ x ∈ xs, x.nest < depth := by
    rw [nest, Nat.succ_lt_succ_iff, nestItems_lt pos]
  constructor
  · rintro ⟨⟨⟩, less⟩ x listed
    next items => exact ⟨items x listed, nested.1 less x listed⟩
  · intro items
    exact ⟨.arr fun x listed => (items x listed).1, nested.2 fun x listed => (items x listed).2⟩

theorem within_obj {depth : Nat} (pos : 0 < depth) {es : Entries Json} :
    (obj es).Within (depth + 1) ↔ es.keys.Nodup ∧ ∀ e ∈ es, e.2.Within depth := by
  have nested : (obj es).nest < depth + 1 ↔ ∀ e ∈ es, e.2.nest < depth := by
    rw [nest, Nat.succ_lt_succ_iff, nestEntries_lt pos]
  constructor
  · rintro ⟨⟨⟩, less⟩
    next once values => exact ⟨once, fun e listed => ⟨values e listed, nested.1 less e listed⟩⟩
  · rintro ⟨once, values⟩
    exact ⟨.obj once fun e listed => (values e listed).1, nested.2 fun e listed => (values e listed).2⟩

theorem Within.mono {depth depth' : Nat} {j : Json} (within : j.Within depth) (le : depth ≤ depth') :
    j.Within depth' := ⟨within.1, within.2.trans_le le⟩

theorem within_str {depth : Nat} (pos : 0 < depth) (s : String) : (str s).Within depth := ⟨.str s, pos⟩

theorem within_ofStrings {depth : Nat} (deep : 1 < depth) (xs : List String) : (ofStrings xs).Within depth := by
  obtain ⟨depth, rfl⟩ := Nat.exists_eq_add_of_lt deep
  refine (within_arr (by omega)).2 ?_
  rw [List.forall_mem_map]
  exact fun s _ => within_str (by omega) s

theorem within_of_readValue (fuel : Nat) :
    (∀ {depth s j rest}, 0 < depth → readValue fuel depth s = .ok (j, rest) → j.Within depth) ∧
    (∀ {depth first s xs rest}, 0 < depth → readItems fuel depth first s = .ok (xs, rest) →
      ∀ x ∈ xs, x.Within depth) ∧
    (∀ {depth first s es rest}, 0 < depth → readEntries fuel depth first s = .ok (es, rest) →
      ∀ e ∈ es, e.2.Within depth) := by
  induction fuel with
  | zero => exact ⟨nofun, nofun, nofun⟩
  | succ fuel ih =>
      obtain ⟨value, items, entries⟩ := ih
      refine ⟨fun pos reads => ?_, fun pos reads => ?_, fun pos reads => ?_⟩
      · rcases readValue_ok reads with ⟨sound, flat⟩ | ⟨t, xs, deep, parts, rfl⟩ | ⟨t, es, deep, parts, rfl⟩
        · exact ⟨sound, flat ▸ pos⟩
        · have inner : 0 < _ := Nat.sub_pos_of_lt deep
          have within := (within_arr inner).2 (items inner parts)
          rwa [Nat.sub_add_cancel pos] at within
        · have inner : 0 < _ := Nat.sub_pos_of_lt deep
          have within := (within_obj inner).2
            ⟨Entries.nodup_keys_ofList es, Entries.forall_mem_ofList (entries inner parts)⟩
          rwa [Nat.sub_add_cancel pos] at within
      · rcases readItems_ok reads with rfl | ⟨t, x, u, ys, head, tail, rfl⟩
        · exact List.forall_mem_nil _
        · exact List.forall_mem_cons.2 ⟨value pos head, items pos tail⟩
      · rcases readEntries_ok reads with rfl | ⟨t, entry⟩
        · exact List.forall_mem_nil _
        · obtain ⟨t, key, x, u, fs, head, tail, rfl⟩ := readEntry_ok entry
          exact List.forall_mem_cons.2 ⟨value pos head, entries pos tail⟩

theorem within_of_read {text : String} {j : Json} (reads : read text = .ok j) : j.Within depthLimit := by
  rw [read, mapError_eq_ok, readChars, bind_eq_ok] at reads
  obtain ⟨⟨j', rest⟩, value, reads⟩ := reads
  dsimp only at reads
  split at reads <;> cases reads
  exact (within_of_readValue _).1 (by decide) value

theorem distinct_of_read {text : String} {j : Json} (reads : read text = .ok j) : j.Distinct :=
  (within_of_read reads).1.distinct

end Prompt.Json
