import Mathlib.Data.List.Basic
import Prompt.Json.Decode
import Prompt.Json.Schema
import Prompt.Proofs.Json.RoundTrip

/-!
# What shapes and decoders accept

For each kind of shape, which values have no violation of it (`Describes`), and for each decoder, which
values it decodes (`Accepts`). Both are said in the same words, which do not depend on how doubles are
written and read again.
-/

namespace Prompt.Json

/-! ### Kinds of values -/

def IsString (j : Json) : Prop := ∃ s, j = str s

def IsList (p : Json → Prop) (j : Json) : Prop := ∃ xs, j = arr xs ∧ ∀ x ∈ xs, p x

def OrNull (p : Json → Prop) (j : Json) : Prop := j = null ∨ p j

/-- One name or a list of names. -/
def IsNames (j : Json) : Prop := IsString j ∨ IsList IsString j

/-- A whole number of 32 bits, written without a fraction. -/
def IsInt32 (j : Json) : Prop := ∃ n : Int, j = num (.int n) ∧ -2 ^ 31 ≤ n ∧ n < 2 ^ 31

/-- The key is there, over such a value. -/
def Has (es : Entries Json) (key : String) (p : Json → Prop) : Prop := ∃ j, es.get? key = some j ∧ p j

/-- The key is missing or over such a value. -/
def MayHave (es : Entries Json) (key : String) (p : Json → Prop) : Prop := ∀ j, es.get? key = some j → p j

theorem has_congr {p q : Json → Prop} (same : ∀ j, p j ↔ q j) (es : Entries Json) (key : String) :
    Has es key p ↔ Has es key q :=
  exists_congr fun j => and_congr_right fun _ => same j

theorem mayHave_congr {p q : Json → Prop} (same : ∀ j, p j ↔ q j) (es : Entries Json) (key : String) :
    MayHave es key p ↔ MayHave es key q :=
  forall_congr' fun j => imp_congr_right fun _ => same j

theorem mayHave_true (es : Entries Json) (key : String) : MayHave es key fun _ => True :=
  fun _ _ => trivial

theorem mayHave_of_get? {es : Entries Json} {key : String} {p : Json → Prop} {j : Json}
    (found : es.get? key = some j) (holds : p j) : MayHave es key p := by
  intro j' found'
  cases found.symm.trans found'
  exact holds

theorem mayHave_of_map {α : Type} {es : Entries Json} {key : String} {p : Json → Prop} {o : Option α}
    {f : α → Json} (found : es.get? key = o.map f) (holds : ∀ a, p (f a)) : MayHave es key p := by
  intro j found'
  cases o with
  | none => cases found.symm.trans found'
  | some a => exact mayHave_of_get? found (holds a) j found'

theorem has_iff {es : Entries Json} {key : String} {p : Json → Prop} :
    Has es key p ↔ es.contains key = true ∧ MayHave es key p := by
  rw [Has, MayHave, Entries.contains]
  cases es.get? key <;> simp

/-! ### Shapes -/

/-- A value has no violation of the shape exactly where the condition holds, wherever it stands. -/
abbrev Describes (shape : Shape) (p : Json → Prop) : Prop :=
  ∀ place j, shape.violations place j = [] ↔ p j

theorem describes_anything : Describes .anything fun _ => True := fun _ _ => iff_of_true rfl trivial

theorem describes_string : Describes .string IsString := fun place j => by
  cases j with
  | str s => exact iff_of_true rfl ⟨s, rfl⟩
  | _ => exact iff_of_false (List.cons_ne_nil _ _) nofun

theorem describes_optionalString : Describes .optionalString (OrNull IsString) := fun place j => by
  cases j with
  | str s => exact iff_of_true rfl (.inr ⟨s, rfl⟩)
  | null => exact iff_of_true rfl (.inl rfl)
  | _ => exact iff_of_false (List.cons_ne_nil _ _) nofun

theorem ite_eq_nil_iff {α : Type} {b : Bool} {a : α} : (if b then [] else [a]) = [] ↔ b = true := by
  cases b <;> simp

theorem describes_integer : Describes .integer fun j => j.isIntegral = true := fun _ _ => ite_eq_nil_iff

theorem describes_exactly (text : String) : Describes (.exactly text) (· = str text) := fun place j => by
  cases j with
  | str s =>
      change (if s = text then [] else [_]) = [] ↔ _
      split <;> simp_all
  | _ => exact iff_of_false (List.cons_ne_nil _ _) nofun

theorem describes_none : Describes .none (· = null) := fun place j => by
  cases j with
  | null => exact iff_of_true rfl rfl
  | _ => exact iff_of_false (List.cons_ne_nil _ _) nofun

theorem Describes.items {shape : Shape} {p : Json → Prop} (item : Describes shape p) (optional : Bool)
    (place : List String) (xs : List Json) :
    (Shape.list optional shape).violations place (arr xs) = [] ↔ ∀ x ∈ xs, p x := by
  have each : (∀ x ∈ xs.zipIdx, p x.1) ↔ ∀ x ∈ xs, p x := by
    conv_rhs => rw [← List.zipIdx_map_fst 0 xs, List.forall_mem_map]
  change (xs.zipIdx.map fun x => shape.violations (place ++ [toString x.2]) x.1).flatten = [] ↔ _
  rw [List.flatten_eq_nil_iff, List.forall_mem_map, ← each]
  exact forall_congr' fun x => imp_congr_right fun _ => item _ _

theorem Describes.list {shape : Shape} {p : Json → Prop} (item : Describes shape p) :
    Describes (.list false shape) (IsList p) := fun place j => by
  cases j with
  | arr xs => exact (item.items false place xs).trans ⟨fun all => ⟨xs, rfl, all⟩, fun ⟨_, same, all⟩ => by
      cases same; exact all⟩
  | _ => exact iff_of_false (List.cons_ne_nil _ _) nofun

theorem Describes.optionalList {shape : Shape} {p : Json → Prop} (item : Describes shape p) :
    Describes (.list true shape) (OrNull (IsList p)) := fun place j => by
  cases j with
  | arr xs => exact (item.items true place xs).trans ⟨fun all => .inr ⟨xs, rfl, all⟩, by
      rintro (same | ⟨_, same, all⟩) <;> cases same; exact all⟩
  | null => exact iff_of_true rfl (.inl rfl)
  | _ => exact iff_of_false (List.cons_ne_nil _ _) nofun

theorem someMatches_iff {place : List String} {j : Json} {shapes : List Shape} :
    Shape.someMatches place j shapes = true ↔ ∃ shape ∈ shapes, shape.violations place j = [] := by
  induction shapes with
  | nil => exact iff_of_false Bool.false_ne_true nofun
  | cons shape shapes ih =>
      change ((shape.violations place j).isEmpty || Shape.someMatches place j shapes) = true ↔ _
      rw [Bool.or_eq_true, List.isEmpty_iff, ih]
      simp

theorem violations_either {keyword : String} {shapes : List Shape} {place : List String} {j : Json} :
    (Shape.either keyword shapes).violations place j = [] ↔
      ∃ shape ∈ shapes, shape.violations place j = [] :=
  ite_eq_nil_iff.trans someMatches_iff

theorem fieldViolations_eq_nil {place : List String} {es : Entries Json} {fields : List (String × Shape)} :
    Shape.fieldViolations place es fields = [] ↔ ∀ f ∈ fields,
      MayHave es f.1 fun j => f.2.violations (place ++ [f.1]) j = [] := by
  induction fields with
  | nil => exact iff_of_true rfl (List.forall_mem_nil _)
  | cons f fields ih =>
      obtain ⟨key, shape⟩ := f
      rw [Shape.fieldViolations, List.append_eq_nil_iff, ih, List.forall_mem_cons, MayHave]
      cases es.get? key <;> simp

theorem violations_object {required : List String} {fields : List (String × Shape)} {place : List String}
    {j : Json} : (Shape.object required fields).violations place j = [] ↔ ∃ es, j = obj es ∧
      (∀ key ∈ required, Entries.contains es key = true) ∧
      ∀ f ∈ fields, MayHave es f.1 fun j => f.2.violations (place ++ [f.1]) j = [] := by
  cases j with
  | obj es =>
      change (required.filter fun key => !Entries.contains es key).map _ ++
        Shape.fieldViolations place es fields = [] ↔ _
      rw [List.append_eq_nil_iff, List.map_eq_nil_iff, List.filter_eq_nil_iff, fieldViolations_eq_nil]
      simp
  | _ => exact iff_of_false (List.cons_ne_nil _ _) nofun

/-! ### Decoders -/

def Accepts {α : Type} (decoder : Decoder α) (j : Json) : Prop := ∃ a, decoder j = .ok a

theorem accepts_value (j : Json) : Accepts .value j := ⟨j, rfl⟩

theorem accepts_string {j : Json} : Accepts .string j ↔ IsString j := by
  cases j <;> simp [Accepts, Decoder.string, IsString]

theorem int32_eq_ok {j : Json} {n : Int} :
    Decoder.int32 j = .ok n ↔ j = num (.int n) ∧ -2 ^ 31 ≤ n ∧ n < 2 ^ 31 := by
  unfold Decoder.int32
  cases j with
  | num m =>
      cases m with
      | int m =>
          have range : (-0x80000000 ≤ m ∧ m ≤ 0x7FFFFFFF) ↔ (-2 ^ 31 ≤ m ∧ m < 2 ^ 31) := by omega
          simp only [Decoder.intBetween, range]
          split
          · next fits =>
              simp only [Except.ok.injEq, num.injEq, Number.int.injEq]
              exact ⟨fun same => ⟨same, same ▸ fits⟩, And.left⟩
          · next outside => exact iff_of_false nofun fun ⟨same, fits⟩ => by cases same; exact outside fits
      | double x => simp [Decoder.intBetween]
  | _ => simp [Decoder.intBetween]

theorem accepts_int32 {j : Json} : Accepts .int32 j ↔ IsInt32 j := exists_congr fun _ => int32_eq_ok

theorem exists_mapM_ok {α β : Type} {f : α → Except DecodeError β} {xs : List α} :
    (∃ ys, xs.mapM f = .ok ys) ↔ ∀ x ∈ xs, ∃ y, f x = .ok y := by
  induction xs with
  | nil => simp [pure, Except.pure]
  | cons x xs ih =>
      rw [List.forall_mem_cons, ← ih, List.mapM_cons]
      cases f x with
      | error e => simp [bind, Except.bind]
      | ok y => cases xs.mapM f <;> simp [bind, Except.bind, pure, Except.pure]

theorem exists_of_mapM_ok {ε α β : Type} {f : α → Except ε β} {xs : List α} {ys : List β}
    (decodes : xs.mapM f = .ok ys) : ∀ y ∈ ys, ∃ x ∈ xs, f x = .ok y := by
  induction xs generalizing ys with
  | nil =>
      cases decodes
      exact List.forall_mem_nil _
  | cons x xs ih =>
      rw [List.mapM_cons, bind_eq_ok] at decodes
      obtain ⟨y, first, decodes⟩ := decodes
      rw [bind_eq_ok] at decodes
      obtain ⟨ys, rest, same⟩ := decodes
      cases same
      rw [List.forall_mem_cons]
      refine ⟨⟨x, List.mem_cons_self, first⟩, fun y listed => ?_⟩
      obtain ⟨x, member, decodes⟩ := ih rest y listed
      exact ⟨x, List.mem_cons_of_mem _ member, decodes⟩

theorem mapM_map_ok {ε α β : Type} {f : β → Except ε α} {g : α → β} {xs : List α}
    (each : ∀ x ∈ xs, f (g x) = .ok x) : (xs.map g).mapM f = .ok xs := by
  induction xs with
  | nil => rfl
  | cons x xs ih =>
      rw [List.forall_mem_cons] at each
      rw [List.map_cons, List.mapM_cons, each.1, ih each.2]
      rfl

theorem accepts_list {α : Type} {item : Decoder α} {j : Json} :
    Accepts (.list item) j ↔ IsList (Accepts item) j := by
  cases j with
  | arr xs => simpa [Accepts, Decoder.list, IsList] using exists_mapM_ok
  | _ => simp [Accepts, Decoder.list, IsList]

theorem accepts_map {α β : Type} {decoder : Decoder α} {f : α → β} {j : Json} :
    Accepts (fun j => (decoder j).map f) j ↔ Accepts decoder j := by
  unfold Accepts
  cases found : decoder j <;> simp [Except.map, found]

theorem accepts_optional {α : Type} {item : Decoder α} {j : Json} :
    Accepts (.optional item) j ↔ OrNull (Accepts item) j := by
  cases j with
  | null => simp [Accepts, Decoder.optional, OrNull]
  | _ => simpa [Accepts, Decoder.optional, OrNull] using accepts_map

theorem accepts_names {α : Type} {type : String} {one : String → α} {many : List String → α} {j : Json} :
    Accepts (.names type one many) j ↔ IsNames j := by
  have list : IsList IsString j ↔ Accepts (.list .string) j := by
    simp only [accepts_list, IsList, accepts_string]
  rw [IsNames, list]
  cases j with
  | str s => simp [Accepts, Decoder.names, IsString]
  | _ =>
    simp only [Accepts, Decoder.names, IsString]
    split <;> simp_all

theorem accepts_variant {known : List String} {name : String} (listed : name ∈ known) :
    Accepts (.variant known) (str name) :=
  ⟨name, by rw [Decoder.variant, Decoder.oneOfNames, if_pos listed]⟩

/-! ### Lists of strings -/

theorem isList_ofStrings (xs : List String) : IsList IsString (ofStrings xs) :=
  ⟨_, rfl, List.forall_mem_map.2 fun s _ => ⟨s, rfl⟩⟩

theorem list_ofStrings (xs : List String) : Decoder.list .string (.ofStrings xs) = .ok xs :=
  mapM_map_ok fun _ _ => rfl

theorem names_ofStrings {α : Type} (type : String) (one : String → α) (many : List String → α)
    (xs : List String) : Decoder.names type one many (.ofStrings xs) = .ok (many xs) := by
  have list := list_ofStrings xs
  rw [ofStrings] at list ⊢
  rw [Decoder.names, list]
  intro s same
  cases same

theorem optional_of_ok {α : Type} {item : Decoder α} {j : Json} {a : α} (solid : j ≠ null)
    (decodes : item j = .ok a) : Decoder.optional item j = .ok (some a) := by
  cases j with
  | null => exact absurd rfl solid
  | _ => simp [Decoder.optional, decodes, Except.map]

/-! ### Records -/

def Field.Fits (f : Field) (es : Entries Json) : Prop :=
  (f.required = true → es.contains f.name = true) ∧ MayHave es f.name fun j => f.check j = .ok ()

theorem check_iff_accepts {α : Type} {decoder : Decoder α} {j : Json} :
    (decoder j).map (fun _ => ()) = .ok () ↔ Accepts decoder j := by
  unfold Accepts
  cases decoder j <;> simp [Except.map]

theorem fits_mandatory {α : Type} {name : String} {decoder : Decoder α} {es : Entries Json} :
    (Field.mandatory name decoder).Fits es ↔ Has es name (Accepts decoder) := by
  rw [has_iff]
  exact and_congr (imp_iff_right rfl) (mayHave_congr (fun _ => check_iff_accepts) es name)

theorem fits_defaulted {α : Type} {name : String} {decoder : Decoder α} {es : Entries Json} :
    (Field.defaulted name decoder).Fits es ↔ MayHave es name (Accepts decoder) := by
  exact (and_iff_right nofun).trans (mayHave_congr (fun _ => check_iff_accepts) es name)

theorem checkEntry_eq_ok {fields : List Field} {es : Entries Json} (once : es.keys.Nodup)
    (fits : ∀ f ∈ fields, f.Fits es) : ∀ e ∈ es, checkEntry fields e = .ok () := by
  intro e listed
  rw [checkEntry]
  cases found : fields.find? fun f => f.name == e.1 with
  | none => rfl
  | some f =>
      have named : f.name = e.1 := by simpa using List.find?_some found
      refine (fits f (List.mem_of_find?_eq_some found)).2 e.2 ?_
      rw [named]
      exact (Entries.get?_eq_some_iff once).2 listed

theorem forM_eq_ok_iff {α ε : Type} {f : α → Except ε Unit} {xs : List α} :
    xs.forM f = .ok () ↔ ∀ x ∈ xs, f x = .ok () := by
  induction xs with
  | nil => exact iff_of_true rfl (List.forall_mem_nil _)
  | cons x xs ih =>
      rw [List.forall_mem_cons, ← ih, List.forM_eq_forM, List.forM_cons]
      cases f x <;> simp [bind, Except.bind]

theorem readRecord_obj {type : String} {fields : List Field} {es : Entries Json} (once : es.keys.Nodup)
    (fits : ∀ f ∈ fields, f.Fits es) : readRecord type fields (obj es) = .ok es := by
  have present : (fields.find? fun f => f.required && !Entries.contains es f.name) = none := by
    rw [List.find?_eq_none]
    intro f listed
    simpa using (fits f listed).1
  rw [readRecord, forM_eq_ok_iff.2 (checkEntry_eq_ok once fits), present]
  rfl

theorem eq_of_readRecord {type : String} {fields : List Field} {es fs : Entries Json}
    (reads : readRecord type fields (obj es) = .ok fs) : fs = es := by
  rw [readRecord, bind_eq_ok] at reads
  obtain ⟨-, -, reads⟩ := reads
  split at reads <;> cases reads
  rfl

theorem has_of_need {α : Type} {es : Entries Json} {name : String} {decoder : Decoder α} {a : α}
    (needed : need es name decoder = .ok a) : Has es name (Accepts decoder) := by
  rw [need] at needed
  split at needed
  · next j found => exact ⟨j, found, a, needed⟩
  · cases needed

theorem orElse_eq_ok {α : Type} {es : Entries Json} {name : String} {decoder : Decoder α} {absent a : α} :
    orElse es name decoder absent = .ok a ↔
      (es.get? name = none ∧ a = absent) ∨ ∃ j, es.get? name = some j ∧ decoder j = .ok a := by
  rw [orElse]
  cases es.get? name <;> simp [eq_comm]

theorem mayHave_of_orElse {α : Type} {es : Entries Json} {name : String} {decoder : Decoder α}
    {absent a : α} (found : orElse es name decoder absent = .ok a) : MayHave es name (Accepts decoder) := by
  intro j listed
  rw [orElse, listed] at found
  exact ⟨a, found⟩

theorem need_of_get? {α : Type} {es : Entries Json} {name : String} {decoder : Decoder α} {j : Json} {a : α}
    (found : es.get? name = some j) (decodes : decoder j = .ok a) : need es name decoder = .ok a := by
  rw [need, found]
  exact decodes

theorem orElse_of_get? {α : Type} {es : Entries Json} {name : String} {decoder : Decoder α} {absent : α}
    {j : Json} {a : α} (found : es.get? name = some j) (decodes : decoder j = .ok a) :
    orElse es name decoder absent = .ok a := by
  rw [orElse, found]
  exact decodes

theorem orElse_of_missing {α : Type} {es : Entries Json} {name : String} {decoder : Decoder α} {absent : α}
    (missing : es.get? name = none) : orElse es name decoder absent = .ok absent := by
  rw [orElse, missing]

theorem orElse_of_map {α : Type} {es : Entries Json} {name : String} {decoder : Decoder α} {o : Option α}
    {f : α → Json} (found : es.get? name = o.map f)
    (decodes : ∀ a, Decoder.optional decoder (f a) = .ok (some a)) :
    orElse es name (.optional decoder) none = .ok o := by
  cases o with
  | none => exact orElse_of_missing found
  | some a => exact orElse_of_get? found (decodes a)

theorem exists_need {α : Type} {es : Entries Json} {name : String} {decoder : Decoder α}
    (has : Has es name (Accepts decoder)) : ∃ a, need es name decoder = .ok a := by
  obtain ⟨j, found, a, decodes⟩ := has
  exact ⟨a, need_of_get? found decodes⟩

theorem exists_orElse {α : Type} {es : Entries Json} {name : String} {decoder : Decoder α} (absent : α)
    (has : MayHave es name (Accepts decoder)) : ∃ a, orElse es name decoder absent = .ok a := by
  rw [orElse]
  cases found : es.get? name with
  | none => exact ⟨absent, rfl⟩
  | some j => exact has j found

/-! ### Values read anew -/

/-- It makes no difference which doubles a value has. -/
def Stable (p : Json → Prop) : Prop := ∀ j, p j.rereads ↔ p j

theorem stable_eq_null : Stable (· = null) := fun j => by
  cases j with
  | num n => cases n <;> simp [rereads]
  | _ => simp [rereads]

theorem stable_eq_str (s : String) : Stable (· = str s) := fun j => by
  cases j with
  | num n => cases n <;> simp [rereads]
  | _ => simp [rereads]

theorem stable_isString : Stable IsString := fun j => exists_congr fun s => stable_eq_str s j

theorem stable_isInt32 : Stable IsInt32 := fun j => by
  cases j with
  | num n => cases n <;> simp [rereads, IsInt32]
  | _ => simp [rereads, IsInt32]

theorem Stable.list {p : Json → Prop} (item : Stable p) : Stable (IsList p) := fun j => by
  cases j with
  | arr xs =>
      simp only [rereads, IsList, arr.injEq, exists_eq_left', rereadItems_eq_map, List.forall_mem_map]
      exact forall_congr' fun x => imp_congr_right fun _ => item x
  | num n => cases n <;> simp [rereads, IsList]
  | _ => simp [rereads, IsList]

theorem Stable.orNull {p : Json → Prop} (item : Stable p) : Stable (OrNull p) := fun j =>
  or_congr (stable_eq_null j) (item j)

theorem stable_isNames : Stable IsNames := fun j => or_congr (stable_isString j) (stable_isString.list j)

theorem get?_rereadEntries (es : Entries Json) (key : String) :
    Entries.get? (rereadEntries es) key = (es.get? key).map rereads := by
  induction es with
  | nil => rfl
  | cons e es ih =>
      obtain ⟨k, v⟩ := e
      rw [rereadEntries, Entries.get?, Entries.get?, ih]
      split <;> rfl

theorem Stable.has {p : Json → Prop} (item : Stable p) (es : Entries Json) (key : String) :
    Has (rereadEntries es) key p ↔ Has es key p := by
  simp only [Has, get?_rereadEntries]
  cases es.get? key <;> simp [item _]

theorem Stable.mayHave {p : Json → Prop} (item : Stable p) (es : Entries Json) (key : String) :
    MayHave (rereadEntries es) key p ↔ MayHave es key p := by
  simp only [MayHave, get?_rereadEntries]
  cases es.get? key <;> simp [item _]

theorem stable_object {p : Entries Json → Prop} (same : ∀ es, p (rereadEntries es) ↔ p es) :
    Stable fun j => ∃ es, j = obj es ∧ p es := fun j => by
  cases j with
  | obj es => simp [rereads, same]
  | num n => cases n <;> simp [rereads]
  | _ => simp [rereads]

end Prompt.Json
