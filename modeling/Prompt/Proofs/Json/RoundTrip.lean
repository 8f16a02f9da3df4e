import Mathlib.Data.List.Basic
import Prompt.Proofs.Json.Numbers
import Prompt.Proofs.Table

/-!
# Reading what was written

The text of a value is read as that value with its doubles read anew, as long as the value nests no deeper
than the reader goes; a value that nests deeper is refused (`read_compact`).
-/

namespace Prompt.Json

/-! ### Strings -/

theorem hexValue?_digitChar {n : Nat} (digit : n < 16) : hexValue? (Nat.digitChar n) = some n := by
  revert n
  decide

theorem readHex_byte {n : Nat} (byte : n < 0x100) (rest : List Char) :
    readHex ('0' :: '0' :: Nat.digitChar (n / 16) :: Nat.digitChar (n % 16) :: rest) = .ok (n, rest) := by
  have zero : hexValue? '0' = some 0 := rfl
  have low := hexValue?_digitChar (Nat.mod_lt n (by decide : 0 < 16))
  have high := hexValue?_digitChar (show n / 16 < 16 by omega)
  have value : ((0 * 16 + 0) * 16 + n / 16) * 16 + n % 16 = n := by omega
  rw [readHex, zero, high, low]
  show Except.ok (((0 * 16 + 0) * 16 + n / 16) * 16 + n % 16, rest) = _
  rw [value]

theorem readEscape_control {c : Char} (control : c.toNat < 0x20) (rest : List Char) :
    readEscape ('u' :: '0' :: '0' :: Nat.digitChar (c.toNat / 16) :: Nat.digitChar (c.toNat % 16) :: rest) =
      .ok (c, rest) := by
  have single : isTrailingSurrogate c.toNat = false ∧ isLeadingSurrogate c.toNat = false := by
    simp only [isTrailingSurrogate, isLeadingSurrogate, Bool.and_eq_false_iff, decide_eq_false_iff_not]
    omega
  show readUnicodeEscape _ = _
  rw [readUnicodeEscape, readHex_byte (by omega)]
  show (if isTrailingSurrogate c.toNat = true then _ else _) = _
  simp [single]

theorem readStringFrom_escape {s rest : List Char} {c : Char} (fuel : Nat) (done : List Char)
    (reads : readEscape s = .ok (c, rest)) :
    readStringFrom (fuel + 1) done ('\\' :: s) = readStringFrom fuel (c :: done) rest := by
  rw [readStringFrom, reads]

theorem readStringFrom_escapeChar (fuel : Nat) (done : List Char) (c : Char) (rest : List Char) :
    readStringFrom (fuel + 1) done (escapeChar c ++ rest) = readStringFrom fuel (c :: done) rest := by
  unfold escapeChar
  split
  case h_8 quote backslash _ _ _ _ _ =>
    split
    · next control =>
        exact readStringFrom_escape fuel done (readEscape_control control rest)
    · next plain =>
        rw [List.singleton_append, readStringFrom, if_neg plain]
        · exact quote
        · exact backslash
  all_goals exact readStringFrom_escape fuel done rfl

theorem readStringFrom_flatMap {s : List Char} {fuel : Nat} (done rest : List Char)
    (enough : s.length < fuel) :
    readStringFrom fuel done (s.flatMap escapeChar ++ '"' :: rest) = .ok (done.reverse ++ s, rest) := by
  induction s generalizing fuel done with
  | nil =>
      obtain ⟨fuel, rfl⟩ := Nat.exists_eq_add_of_lt enough
      simp [readStringFrom]
  | cons c s ih =>
      obtain _ | fuel := fuel
      · cases enough
      · rw [List.flatMap_cons, List.append_assoc, readStringFrom_escapeChar,
          ih _ (Nat.lt_of_succ_lt_succ enough), List.reverse_cons, List.append_assoc, List.singleton_append]

theorem length_escapeChar_pos (c : Char) : 0 < (escapeChar c).length := by
  unfold escapeChar
  split
  case h_8 => split <;> exact Nat.succ_pos _
  all_goals exact Nat.succ_pos _

theorem length_le_flatMap_escapeChar (s : List Char) : s.length ≤ (s.flatMap escapeChar).length := by
  induction s with
  | nil => exact le_rfl
  | cons c s ih =>
      have pos := length_escapeChar_pos c
      rw [List.flatMap_cons, List.length_append, List.length_cons]
      omega

theorem readString_flatMap (s : String) (rest : List Char) :
    readString (s.toList.flatMap escapeChar ++ '"' :: rest) = .ok (s, rest) := by
  have least := length_le_flatMap_escapeChar s.toList
  have enough : s.toList.length < (s.toList.flatMap escapeChar ++ '"' :: rest).length + 1 := by
    rw [List.length_append]
    omega
  rw [readString, readStringFrom_flatMap [] rest enough]
  show Except.ok (String.ofList s.toList, rest) = _
  rw [String.ofList_toList]

theorem writeString_append (s : String) (rest : List Char) :
    writeString s ++ rest = '"' :: (s.toList.flatMap escapeChar ++ '"' :: rest) := by
  simp [writeString]

/-! ### Values -/

/-- A value that can be held: whole numbers fit 64 bits, doubles are finite, and an object has each key
once. -/
inductive Sound : Json → Prop
  | null : Sound null
  | bool (b : Bool) : Sound (bool b)
  | int {n : Int} (least : -2 ^ 63 ≤ n) (less : n < 2 ^ 64) : Sound (num (.int n))
  | double {x : Float} (finite : x.isFinite = true) : Sound (num (.double x))
  | str (s : String) : Sound (str s)
  | arr {xs : List Json} (items : ∀ x ∈ xs, Sound x) : Sound (arr xs)
  | obj {es : Entries Json} (once : es.keys.Nodup) (values : ∀ e ∈ es, Sound e.2) : Sound (obj es)

mutual

/-- How many containers stand around the innermost part, the value itself included. -/
def nest : Json → Nat
  | null => 0
  | bool _ => 0
  | num _ => 0
  | str _ => 0
  | arr xs => nestItems xs + 1
  | obj es => nestEntries es + 1

def nestItems : List Json → Nat
  | [] => 0
  | x :: rest => max x.nest (nestItems rest)

def nestEntries : List (String × Json) → Nat
  | [] => 0
  | (_, v) :: rest => max v.nest (nestEntries rest)

end

mutual

/-- The value with its doubles as they are read after they were written. -/
def rereads : Json → Json
  | null => null
  | bool b => bool b
  | num (.int n) => num (.int n)
  | num (.double x) => num (.double (reread x))
  | str s => str s
  | arr xs => arr (rereadItems xs)
  | obj es => obj (rereadEntries es)

def rereadItems : List Json → List Json
  | [] => []
  | x :: rest => x.rereads :: rereadItems rest

def rereadEntries : List (String × Json) → List (String × Json)
  | [] => []
  | (k, v) :: rest => (k, v.rereads) :: rereadEntries rest

end

/-- What comes of reading the text of something that nests `n` deep where less than `depth` is allowed. -/
def Outcome {α : Type} (n depth : Nat) (a : α) (rest : List Char) (read : Except Failure (α × List Char)) :
    Prop :=
  (n < depth → read = .ok (a, rest)) ∧ (depth ≤ n → ∃ failure, read = .error failure)

theorem Outcome.flat {α : Type} {depth : Nat} {a : α} {rest : List Char}
    {read : Except Failure (α × List Char)} (pos : 0 < depth) (reads : read = .ok (a, rest)) :
    Outcome 0 depth a rest read :=
  ⟨fun _ => reads, fun least => absurd pos (Nat.not_lt.2 least)⟩

theorem bind_eq_ok {ε α β : Type} {x : Except ε α} {f : α → Except ε β} {b : β} :
    x >>= f = .ok b ↔ ∃ a, x = .ok a ∧ f a = .ok b := by
  cases x <;> simp [bind, Except.bind]

theorem map_eq_ok {ε α β : Type} {x : Except ε α} {f : α → β} {b : β} :
    x.map f = .ok b ↔ ∃ a, x = .ok a ∧ f a = b := by
  cases x <;> simp [Except.map]

theorem mapError_eq_ok {ε δ α : Type} {x : Except ε α} {f : ε → δ} {a : α} :
    x.mapError f = .ok a ↔ x = .ok a := by
  cases x <;> simp [Except.mapError]

/-- One part and then the others. -/
def readBoth {α β γ : Type} (f : α → β → γ) (first : Except Failure (α × List Char))
    (others : List Char → Except Failure (β × List Char)) : Except Failure (γ × List Char) :=
  first >>= fun x => others x.2 >>= fun y => .ok (f x.1 y.1, y.2)

theorem Outcome.join {α β γ : Type} {n m depth : Nat} {a : α} {b : β} {s rest : List Char}
    {first : Except Failure (α × List Char)} {others : List Char → Except Failure (β × List Char)}
    (f : α → β → γ) (head : Outcome n depth a s first) (tail : Outcome m depth b rest (others s)) :
    Outcome (max n m) depth (f a b) rest (readBoth f first others) := by
  constructor
  · intro less
    rw [readBoth, head.1 ((le_max_left _ _).trans_lt less)]
    change (others s >>= fun y => .ok (f a y.1, y.2)) = _
    rw [tail.1 ((le_max_right _ _).trans_lt less)]
    rfl
  · intro least
    rcases Nat.lt_or_ge n depth with less | deep
    · obtain ⟨failure, fails⟩ := tail.2 ((le_max_iff.1 least).resolve_left (Nat.not_le.2 less))
      refine ⟨failure, ?_⟩
      rw [readBoth, head.1 less]
      change (others s >>= fun y => .ok (f a y.1, y.2)) = _
      rw [fails]
      rfl
    · obtain ⟨failure, fails⟩ := head.2 deep
      exact ⟨failure, by rw [readBoth, fails]; rfl⟩

/-- The text of a value comes out as the value read anew. Each character takes at most two units of fuel. -/
def Reads (v : Json) : Prop :=
  ∀ fuel depth rest, 2 * v.write.length < fuel → 0 < depth → Ends rest →
    Outcome v.nest depth v.rereads rest (readValue fuel depth (v.write ++ rest))

theorem exists_write_eq_cons {v : Json} (sound : v.Sound) :
    ∃ c s, v.write = c :: s ∧ isGap c = false ∧ c ≠ ']' := by
  have numeral {text : List Char} {n : Number} (numeral : Numeral text n) :
      ∃ c s, text = c :: s ∧ isGap c = false ∧ c ≠ ']' := by
    obtain ⟨c, s, text, rfl | digit⟩ := numeral.head
    · exact ⟨_, s, text, rfl, by decide⟩
    · exact ⟨c, s, text, isGap_of_isDigit digit, by rintro rfl; cases digit⟩
  cases sound with
  | null => exact ⟨_, _, rfl, rfl, by decide⟩
  | bool b => cases b <;> exact ⟨_, _, rfl, rfl, by decide⟩
  | int least less => exact numeral (numeral_int least less)
  | double finite => exact numeral (numeral_double finite)
  | str s => exact ⟨_, _, rfl, rfl, by decide⟩
  | arr items => exact ⟨_, _, rfl, rfl, by decide⟩
  | obj once values => exact ⟨_, _, rfl, rfl, by decide⟩

/-- Further parts, each after a comma. -/
def following (parts : List (List Char)) : List Char := parts.flatMap (',' :: ·)

theorem following_cons (part : List Char) (parts : List (List Char)) :
    following (part :: parts) = ',' :: (part ++ following parts) := rfl

theorem intercalate_cons (part : List Char) (parts : List (List Char)) :
    [','].intercalate (part :: parts) = part ++ following parts := by
  induction parts generalizing part with
  | nil => simp [List.intercalate, following]
  | cons next parts ih => rw [List.intercalate_cons_cons, ih, following_cons]; simp

theorem readItems_first {c : Char} {s : List Char} (fuel depth : Nat) (solid : isGap c = false)
    (other : c ≠ ']') : readItems (fuel + 1) depth true (c :: s) =
      readBoth List.cons (readValue fuel depth (c :: s)) (readItems fuel depth false) := by
  rw [readItems, skipGap_of_head solid]
  simp only [↓reduceIte]
  rfl

/-- The items behind a comma. -/
def readFurther (fuel depth : Nat) (s : List Char) : Except Failure (List Json × List Char) :=
  match skipGap s with
  | [] => failBefore .endInValue []
  | ']' :: rest => failAt .trailingComma (']' :: rest)
  | rest => readBoth List.cons (readValue fuel depth rest) (readItems fuel depth false)

theorem readItems_next {c : Char} {s : List Char} (fuel depth : Nat) (solid : isGap c = false)
    (other : c ≠ ']') : readItems (fuel + 1) depth false (',' :: c :: s) =
      readBoth List.cons (readValue fuel depth (c :: s)) (readItems fuel depth false) := by
  rw [readItems, skipGap_of_head rfl]
  change readFurther fuel depth (c :: s) = _
  rw [readFurther, skipGap_of_head solid]
  split
  · next empty => cases empty
  · next close => exact absurd (List.cons.inj close).1 other
  · rfl

theorem readItems_close (fuel depth : Nat) (first : Bool) (rest : List Char) :
    readItems (fuel + 1) depth first (']' :: rest) = .ok ([], rest) := by
  rw [readItems, skipGap_of_head rfl]
  rfl

theorem ends_comma (rest : List Char) : Ends (',' :: rest) := by
  rintro _ _ ⟨⟩
  exact .inl rfl

theorem ends_following_list (parts : List (List Char)) (rest : List Char) :
    Ends (following parts ++ ']' :: rest) := by
  cases parts with
  | nil => rintro _ _ ⟨⟩; exact .inr (.inl rfl)
  | cons part parts => exact ends_comma _

theorem ends_following_object (parts : List (List Char)) (rest : List Char) :
    Ends (following parts ++ '\x7d' :: rest) := by
  cases parts with
  | nil => rintro _ _ ⟨⟩; exact .inr (.inr rfl)
  | cons part parts => exact ends_comma _

theorem outcome_readItems {xs : List Json} (sound : ∀ x ∈ xs, x.Sound) (reads : ∀ x ∈ xs, Reads x)
    (fuel depth : Nat) (enough : 2 * (following (writeItems xs)).length + 1 < fuel) (pos : 0 < depth)
    (rest : List Char) : Outcome (nestItems xs) depth (rereadItems xs) rest
      (readItems fuel depth false (following (writeItems xs) ++ ']' :: rest)) := by
  induction xs generalizing fuel with
  | nil =>
      obtain ⟨fuel, rfl⟩ := Nat.exists_eq_add_of_lt enough
      exact .flat pos (readItems_close _ depth false rest)
  | cons x xs ih =>
      obtain _ | fuel := fuel
      · cases enough
      · obtain ⟨c, s, text, solid, other⟩ := exists_write_eq_cons (sound x List.mem_cons_self)
        rw [writeItems, following_cons, List.length_cons, List.length_append] at enough
        have tail := ih (fun y listed => sound y (List.mem_cons_of_mem _ listed))
          (fun y listed => reads y (List.mem_cons_of_mem _ listed)) fuel (by omega)
        have head := reads x List.mem_cons_self fuel depth _ (by omega) pos
          (ends_following_list (writeItems xs) rest)
        rw [writeItems, following_cons, List.cons_append, List.append_assoc]
        rw [text, List.cons_append] at head ⊢
        rw [readItems_next fuel depth solid other]
        exact head.join List.cons tail

theorem outcome_readItems_first {xs : List Json} (sound : ∀ x ∈ xs, x.Sound) (reads : ∀ x ∈ xs, Reads x)
    (fuel depth : Nat) (enough : 2 * ([','].intercalate (writeItems xs)).length + 1 < fuel)
    (pos : 0 < depth) (rest : List Char) : Outcome (nestItems xs) depth (rereadItems xs) rest
      (readItems fuel depth true ([','].intercalate (writeItems xs) ++ ']' :: rest)) := by
  obtain _ | fuel := fuel
  · cases enough
  · cases xs with
    | nil => exact .flat pos (readItems_close fuel depth true rest)
    | cons x xs =>
        obtain ⟨c, s, text, solid, other⟩ := exists_write_eq_cons (sound x List.mem_cons_self)
        have some : 0 < x.write.length := text ▸ Nat.succ_pos _
        rw [writeItems, intercalate_cons, List.length_append] at enough
        have tail := outcome_readItems (fun y listed => sound y (List.mem_cons_of_mem _ listed))
          (fun y listed => reads y (List.mem_cons_of_mem _ listed)) fuel depth (by omega) pos rest
        have head := reads x List.mem_cons_self fuel depth _ (by omega) pos
          (ends_following_list (writeItems xs) rest)
        rw [writeItems, intercalate_cons, List.append_assoc]
        rw [text, List.cons_append] at head ⊢
        rw [readItems_first fuel depth solid other]
        exact head.join List.cons tail

theorem Outcome.wrap {α β : Type} {n depth : Nat} {a : α} {b : β} {rest : List Char}
    {read : Except Failure (α × List Char)} {outer : Except Failure (β × List Char)}
    (inner : Outcome n depth a rest read) (ok : read = .ok (a, rest) → outer = .ok (b, rest))
    (error : ∀ failure, read = .error failure → outer = .error failure) :
    Outcome (n + 1) (depth + 1) b rest outer := by
  constructor
  · intro less
    exact ok (inner.1 (Nat.lt_of_succ_lt_succ less))
  · intro least
    obtain ⟨failure, fails⟩ := inner.2 (Nat.le_of_succ_le_succ least)
    exact ⟨failure, error failure fails⟩

theorem Outcome.tooDeep {α : Type} {n : Nat} {a : α} {rest : List Char} (failure : Failure) :
    Outcome (n + 1) 1 a rest (.error failure) :=
  ⟨fun less => absurd less (Nat.not_lt.2 (Nat.le_add_left 1 n)), fun _ => ⟨failure, rfl⟩⟩

theorem readValue_list (fuel depth : Nat) (s : List Char) :
    readValue (fuel + 1) (depth + 2) ('[' :: s) =
      match readItems fuel (depth + 1) true s with
      | .ok (xs, rest) => .ok (arr xs, rest)
      | .error e => .error e := by
  rw [readValue, skipGap_of_head rfl]
  exact if_neg (by omega)

theorem readValue_object (fuel depth : Nat) (s : List Char) :
    readValue (fuel + 1) (depth + 2) ('\x7b' :: s) =
      match readEntries fuel (depth + 1) true s with
      | .ok (es, rest) => .ok (obj (Entries.ofList es), rest)
      | .error e => .error e := by
  rw [readValue, skipGap_of_head rfl]
  exact if_neg (by omega)

theorem readValue_tooDeep {c : Char} (container : c = '[' ∨ c = '\x7b') (fuel : Nat) (s : List Char) :
    readValue (fuel + 1) 1 (c :: s) = failAt .tooDeep (c :: s) := by
  rcases container with rfl | rfl <;> (rw [readValue, skipGap_of_head rfl]; rfl)

theorem reads_arr {xs : List Json} (sound : ∀ x ∈ xs, x.Sound) (reads : ∀ x ∈ xs, Reads x) :
    Reads (arr xs) := by
  intro fuel depth rest enough pos ends
  obtain _ | fuel := fuel
  · cases enough
  · rw [write, List.cons_append, List.length_cons, List.length_append] at enough
    have text : (arr xs).write ++ rest = '[' :: ([','].intercalate (writeItems xs) ++ ']' :: rest) := by
      simp [write]
    rw [text]
    obtain _ | _ | depth := depth
    · cases pos
    · rw [readValue_tooDeep (.inl rfl)]
      exact .tooDeep _
    · have inner := outcome_readItems_first sound reads fuel (depth + 1)
        (by simp only [List.length_singleton] at enough; omega) (Nat.succ_pos _) rest
      exact inner.wrap (fun reads => by rw [readValue_list, reads]; rfl)
        (fun failure fails => by rw [readValue_list, fails])

/-- An entry behind its key, and those that follow. -/
def readUnder (fuel depth : Nat) (key : String) (s : List Char) :
    Except Failure (List (String × Json) × List Char) :=
  match skipGap s with
  | [] => failBefore .endInObject []
  | ':' :: rest =>
    readBoth (fun x es => (key, x) :: es) (readValue fuel depth rest) (readEntries fuel depth false)
  | rest => failAt .expectedColon rest

/-- An entry behind its opening quote, and those that follow. -/
def readEntry (fuel depth : Nat) (s : List Char) : Except Failure (List (String × Json) × List Char) :=
  readString s >>= fun key => readUnder fuel depth key.1 key.2

theorem readEntries_first (fuel depth : Nat) (s : List Char) :
    readEntries (fuel + 1) depth true ('"' :: s) = readEntry fuel depth s := by
  rw [readEntries, skipGap_of_head rfl]
  rfl

theorem readEntries_next (fuel depth : Nat) (s : List Char) :
    readEntries (fuel + 1) depth false (',' :: '"' :: s) = readEntry fuel depth s := by
  rw [readEntries, skipGap_of_head rfl]
  rfl

theorem readEntries_close (fuel depth : Nat) (first : Bool) (rest : List Char) :
    readEntries (fuel + 1) depth first ('\x7d' :: rest) = .ok ([], rest) := by
  rw [readEntries, skipGap_of_head rfl]
  rfl

theorem readEntry_key (fuel depth : Nat) (key : String) (s : List Char) :
    readEntry fuel depth (key.toList.flatMap escapeChar ++ '"' :: ':' :: s) =
      readBoth (fun x es => (key, x) :: es) (readValue fuel depth s) (readEntries fuel depth false) := by
  rw [readEntry, readString_flatMap]
  change readUnder fuel depth key (':' :: s) = _
  rw [readUnder, skipGap_of_head rfl]
  rfl

theorem outcome_readEntries {es : Entries Json} (reads : ∀ e ∈ es, Reads e.2) (fuel depth : Nat)
    (enough : 2 * (following (writeEntries es)).length + 1 < fuel) (pos : 0 < depth) (rest : List Char) :
    Outcome (nestEntries es) depth (rereadEntries es) rest
      (readEntries fuel depth false (following (writeEntries es) ++ '\x7d' :: rest)) := by
  induction es generalizing fuel with
  | nil =>
      obtain ⟨fuel, rfl⟩ := Nat.exists_eq_add_of_lt enough
      exact .flat pos (readEntries_close _ depth false rest)
  | cons e es ih =>
      obtain ⟨key, v⟩ := e
      obtain _ | fuel := fuel
      · cases enough
      · rw [writeEntries, following_cons, List.length_cons, List.length_append, List.length_append,
          List.length_cons] at enough
        have tail := ih (fun e listed => reads e (List.mem_cons_of_mem _ listed)) fuel (by omega)
        have head := reads (key, v) List.mem_cons_self fuel depth _ (by dsimp only; omega) pos
          (ends_following_object (writeEntries es) rest)
        rw [writeEntries, following_cons, List.cons_append, List.append_assoc, List.append_assoc,
          writeString_append, List.cons_append, readEntries_next, readEntry_key]
        exact head.join (fun x es => (key, x) :: es) tail

theorem outcome_readEntries_first {es : Entries Json} (reads : ∀ e ∈ es, Reads e.2) (fuel depth : Nat)
    (enough : 2 * ([','].intercalate (writeEntries es)).length + 1 < fuel) (pos : 0 < depth)
    (rest : List Char) : Outcome (nestEntries es) depth (rereadEntries es) rest
      (readEntries fuel depth true ([','].intercalate (writeEntries es) ++ '\x7d' :: rest)) := by
  obtain _ | fuel := fuel
  · cases enough
  · cases es with
    | nil => exact .flat pos (readEntries_close fuel depth true rest)
    | cons e es =>
        obtain ⟨key, v⟩ := e
        rw [writeEntries, intercalate_cons, List.length_append, List.length_append, List.length_cons]
          at enough
        have tail := outcome_readEntries (fun e listed => reads e (List.mem_cons_of_mem _ listed))
          fuel depth (by omega) pos rest
        have head := reads (key, v) List.mem_cons_self fuel depth _ (by dsimp only; omega) pos
          (ends_following_object (writeEntries es) rest)
        rw [writeEntries, intercalate_cons, List.append_assoc, List.append_assoc, writeString_append,
          List.cons_append, readEntries_first, readEntry_key]
        exact head.join (fun x es => (key, x) :: es) tail

theorem rereadItems_eq_map (xs : List Json) : rereadItems xs = xs.map rereads := by
  induction xs with
  | nil => rfl
  | cons x xs ih => rw [rereadItems, ih, List.map_cons]

theorem rereadEntries_eq_map (es : Entries Json) : rereadEntries es = es.map fun e => (e.1, e.2.rereads) := by
  induction es with
  | nil => rfl
  | cons e es ih => rw [rereadEntries, ih, List.map_cons]

theorem keys_rereadEntries (es : Entries Json) : Entries.keys (rereadEntries es) = es.keys := by
  rw [rereadEntries_eq_map, Entries.keys, Entries.keys, List.map_map]
  rfl

theorem reads_obj {es : Entries Json} (once : es.keys.Nodup) (reads : ∀ e ∈ es, Reads e.2) :
    Reads (obj es) := by
  intro fuel depth rest enough pos ends
  obtain _ | fuel := fuel
  · cases enough
  · rw [write, List.cons_append, List.length_cons, List.length_append] at enough
    have text : (obj es).write ++ rest =
        '\x7b' :: ([','].intercalate (writeEntries es) ++ '\x7d' :: rest) := by
      simp [write]
    rw [text]
    obtain _ | _ | depth := depth
    · cases pos
    · rw [readValue_tooDeep (.inr rfl)]
      exact .tooDeep _
    · have inner := outcome_readEntries_first reads fuel (depth + 1)
        (by simp only [List.length_singleton] at enough; omega) (Nat.succ_pos _) rest
      have table : Entries.ofList (rereadEntries es) = rereadEntries es :=
        Entries.ofList_of_nodup (by rwa [keys_rereadEntries])
      exact inner.wrap (fun reads => by rw [readValue_object, reads]; dsimp only; rw [table, rereads])
        (fun failure fails => by rw [readValue_object, fails])

theorem readWord_append (word rest : List Char) (value : Json) :
    readWord word value (word ++ rest) = .ok (value, rest) := by
  induction word with
  | nil => rw [List.nil_append, readWord]
  | cons c word ih => rw [List.cons_append, readWord, if_pos rfl, ih]

theorem reads_of_flat {v : Json} (flat : v.nest = 0) (reads : ∀ fuel depth rest, Ends rest →
    readValue (fuel + 1) depth (v.write ++ rest) = .ok (v.rereads, rest)) : Reads v := by
  intro fuel depth rest enough pos ends
  obtain _ | fuel := fuel
  · cases enough
  · rw [flat]
    exact .flat pos (reads fuel depth rest ends)

theorem reads_of_sound {v : Json} (sound : v.Sound) : Reads v := by
  induction sound with
  | null =>
      refine reads_of_flat rfl fun fuel depth rest _ => ?_
      rw [write, List.cons_append, readValue, skipGap_of_head rfl]
      exact readWord_append _ rest null
  | bool b =>
      refine reads_of_flat rfl fun fuel depth rest _ => ?_
      cases b with
      | true =>
          rw [write, List.cons_append, readValue, skipGap_of_head rfl]
          exact readWord_append _ rest (.bool true)
      | false =>
          rw [write, List.cons_append, readValue, skipGap_of_head rfl]
          exact readWord_append _ rest (.bool false)
  | int least less =>
      refine reads_of_flat rfl fun fuel depth rest ends => ?_
      exact (numeral_int least less).readValue fuel depth ends
  | double finite =>
      refine reads_of_flat rfl fun fuel depth rest ends => ?_
      exact (numeral_double finite).readValue fuel depth ends
  | str s =>
      refine reads_of_flat rfl fun fuel depth rest _ => ?_
      rw [write, writeString_append, readValue, skipGap_of_head rfl]
      simp only [readString_flatMap, rereads]
  | arr items ih => exact reads_arr items ih
  | obj once values ih => exact reads_obj once ih

/-- The text of a value is read where containers do not nest too deep, and only there. -/
theorem read_compact {v : Json} (sound : v.Sound) :
    (v.nest < depthLimit → read v.compact = .ok v.rereads) ∧
      (depthLimit ≤ v.nest → ∃ failure, read v.compact = .error failure) := by
  obtain ⟨ok, fails⟩ := reads_of_sound sound (2 * v.write.length + 2) depthLimit []
    (by omega) (by decide) ends_nil
  rw [List.append_nil] at ok fails
  rw [read, compact, String.toList_ofList, readChars]
  constructor
  · intro less
    rw [ok less]
    rfl
  · intro least
    obtain ⟨failure, reads⟩ := fails least
    exact ⟨failure.locate v.write, by rw [reads]; rfl⟩

/-! ### Doubles -/

mutual

def doubles : Json → List Float
  | null => []
  | bool _ => []
  | num (.int _) => []
  | num (.double x) => [x]
  | str _ => []
  | arr xs => itemDoubles xs
  | obj es => entryDoubles es

def itemDoubles : List Json → List Float
  | [] => []
  | x :: rest => x.doubles ++ itemDoubles rest

def entryDoubles : List (String × Json) → List Float
  | [] => []
  | (_, v) :: rest => v.doubles ++ entryDoubles rest

end

mutual

theorem rereads_eq_self_iff (j : Json) : j.rereads = j ↔ ∀ x ∈ j.doubles, reread x = x := by
  cases j with
  | num n => cases n <;> simp [rereads, doubles]
  | arr xs => simp [rereads, doubles, rereadItems_eq_self_iff xs]
  | obj es => simp [rereads, doubles, rereadEntries_eq_self_iff es]
  | _ => simp [rereads, doubles]

theorem rereadItems_eq_self_iff (xs : List Json) :
    rereadItems xs = xs ↔ ∀ x ∈ itemDoubles xs, reread x = x := by
  cases xs with
  | nil => simp [rereadItems, itemDoubles]
  | cons x xs =>
      rw [rereadItems, itemDoubles, List.forall_mem_append, List.cons.injEq, rereads_eq_self_iff x,
        rereadItems_eq_self_iff xs]

theorem rereadEntries_eq_self_iff (es : List (String × Json)) :
    rereadEntries es = es ↔ ∀ x ∈ entryDoubles es, reread x = x := by
  cases es with
  | nil => simp [rereadEntries, entryDoubles]
  | cons e es =>
      obtain ⟨k, v⟩ := e
      rw [rereadEntries, entryDoubles, List.forall_mem_append, List.cons.injEq, Prod.mk.injEq,
        and_iff_right rfl, rereads_eq_self_iff v, rereadEntries_eq_self_iff es]

end

theorem rereadEntries_append (es fs : Entries Json) :
    rereadEntries (es ++ fs) = rereadEntries es ++ rereadEntries fs := by
  simp only [rereadEntries_eq_map, List.map_append]

theorem rereadEntries_optional {α : Type} (o : Option α) (name : String) (f : α → Json) :
    rereadEntries (o.map fun a => (name, f a)).toList = (o.map fun a => (name, (f a).rereads)).toList := by
  cases o <;> rfl

theorem rereads_ofStrings (xs : List String) : (ofStrings xs).rereads = ofStrings xs := by
  rw [ofStrings, rereads, rereadItems_eq_map, List.map_map]
  rfl

end Prompt.Json
