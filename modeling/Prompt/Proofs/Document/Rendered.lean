import Prompt.Document.Markdown
import Prompt.Proofs.Table

/-!
# The text of a document

The text is the summary and one headed block for each entry that has something to show, with a blank line
between them (`render_document`). An entry shows nothing exactly when its value is blank: every other value
leaves some text, whatever is dropped inside it. So entries without content come and go unseen, and new
ones only add blocks.
-/

namespace Prompt

open Decimal

/-! ### Values that leave some text -/

theorem Decimal.Layout.write_ne_nil (layout : Layout) (d : Digits) : layout.write d ≠ [] := by
  unfold Layout.write
  split <;> exact List.append_ne_nil_of_right_ne_nil _ (List.cons_ne_nil _ _)

theorem Number.write_ne_nil (n : Number) : n.write ≠ [] := by
  cases n with
  | int n =>
      cases n with
      | ofNat n =>
          show (Nat.repr n).toList ≠ []
          rw [Nat.toList_repr]
          exact Nat.toDigits_ne_nil
      | negSucc n =>
          show ("-" ++ (n + 1).repr).toList ≠ []
          rw [String.toList_append]
          exact List.cons_ne_nil _ _
  | double x =>
      apply List.append_ne_nil_of_right_ne_nil
      split
      · exact List.cons_ne_nil _ _
      · exact Layout.write_ne_nil _ _

theorem Json.compact_ne_empty (v : Json) : v.compact ≠ "" := by
  rw [Json.compact, ne_eq, String.ofList_eq_empty_iff]
  cases v with
  | bool b => cases b <;> exact List.cons_ne_nil _ _
  | num n => exact n.write_ne_nil
  | _ => exact List.cons_ne_nil _ _

theorem Json.isNull_iff {v : Json} : v.isNull = true ↔ v = .null := by
  cases v <;> simp [isNull]

namespace Markdown

theorem intercalate_eq_empty_iff {separator : String} {parts : List String} (filled : ∀ p ∈ parts, p ≠ "") :
    separator.intercalate parts = "" ↔ parts = [] := by
  constructor
  · intro empty
    match parts with
    | [] => rfl
    | [p] => exact absurd (by simpa using empty) (filled p List.mem_cons_self)
    | p :: q :: rest =>
        rw [String.intercalate_cons_cons, String.append_assoc, String.append_eq_empty_iff] at empty
        exact absurd empty.1 (filled p List.mem_cons_self)
  · rintro rfl
    exact String.intercalate_nil

theorem field_ne_empty (e : String × Json) : field e ≠ "" := by
  have label (text : String) : "- **" ++ e.1 ++ "**:" ++ text ≠ "" := by
    simp [String.append_eq_empty_iff]
  unfold field
  dsimp only
  split
  · split <;> (rw [String.append_assoc]; exact label _)
  · rw [String.append_assoc]
    exact label _

/-- A value without content: none at all, or an object all of whose fields have none. -/
inductive Blank : Json → Prop where
  | null : Blank .null
  | text : Blank (.str "")
  | items : Blank (.arr [])
  | fields {es : Entries Json} (absent : ∀ e ∈ es, e.2 = .null) : Blank (.obj es)

theorem body_eq_empty_iff {v : Json} : body v = "" ↔ Blank v := by
  constructor
  · intro empty
    cases v with
    | null => exact .null
    | bool b => exact absurd empty (Json.compact_ne_empty _)
    | num n => exact absurd empty (Json.compact_ne_empty _)
    | str s =>
        obtain rfl : s = "" := empty
        exact .text
    | arr items =>
        have filled : ∀ p ∈ items.map fun i => "- " ++ inline i, p ≠ "" := by
          simp [String.append_eq_empty_iff]
        obtain rfl := List.map_eq_nil_iff.1 ((intercalate_eq_empty_iff filled).1 empty)
        exact .items
    | obj es =>
        have filled : ∀ p ∈ (present es).map field, p ≠ "" := by
          rintro p listed
          obtain ⟨e, -, rfl⟩ := List.mem_map.1 listed
          exact field_ne_empty e
        have none := List.map_eq_nil_iff.1 ((intercalate_eq_empty_iff filled).1 empty)
        refine .fields fun e listed => Json.isNull_iff.1 ?_
        simpa using List.filter_eq_nil_iff.1 none e listed
  · rintro (_ | _ | _ | @⟨es, absent⟩)
    · rfl
    · rfl
    · rfl
    · have none : present es = [] := List.filter_eq_nil_iff.2 fun e listed => by
        simp [Json.isNull_iff.2 (absent e listed)]
      rw [body, none]
      rfl

/-! ### The parts of the text -/

def summary? (document : Entries Json) : Option String :=
  ((document.get? summaryKey).bind Json.asString?).filter (· ≠ "")

def headed (e : String × Json) : String := "## " ++ Transform.humanize e.1 ++ "\n\n" ++ body e.2

/-- Entries with a block. -/
def Shown (e : String × Json) : Prop := e.1 ≠ summaryKey ∧ e.1 ≠ versionKey ∧ body e.2 ≠ ""

instance : DecidablePred Shown := fun _ => inferInstanceAs (Decidable (_ ∧ _ ∧ _))

/-- Entries that leave no trace in the text. -/
def Silent (e : String × Json) : Prop := e.1 ≠ summaryKey ∧ (e.1 = versionKey ∨ Blank e.2)

/-- One block for each entry that has content, in their order. -/
def sections (es : Entries Json) : List String := (es.filter fun e => Shown e).map headed

def parts (document : Entries Json) : List String := (summary? document).toList ++ sections document

theorem opening_preamble (document : Entries Json) : opening (preamble document) = (summary? document).toList := by
  rw [preamble, summary?]
  cases (document.get? summaryKey).bind Json.asString? with
  | none => rfl
  | some s =>
      rw [opening, Option.getD_some, Option.filter]
      by_cases empty : s = "" <;> simp [empty]

theorem entryBlock?_eq (e : String × Json) : entryBlock? e = if Shown e then some (headed e) else none := by
  unfold entryBlock? block? Shown
  by_cases summary : e.1 = summaryKey
  · simp [summary]
  · by_cases version : e.1 = versionKey
    · simp [version]
    · by_cases empty : body e.2 = ""
      · simp [summary, version, empty]
      · simp only [summary, version, empty, or_self, if_false, ne_eq, not_false_eq_true, and_self, if_true]
        rfl

theorem render_eq (document : Entries Json) : render document = joined (parts document) := by
  have blocks : document.filterMap entryBlock? = sections document := by
    induction document with
    | nil => rfl
    | cons e rest ih =>
        rw [sections, List.filterMap_cons, List.filter_cons, entryBlock?_eq, ih]
        by_cases shown : Shown e <;> simp [sections, shown]
  rw [render, parts, opening_preamble, blocks]

theorem parts_filled (document : Entries Json) : "" ∉ parts document := by
  intro listed
  rcases List.mem_append.1 listed with summary | block
  · obtain ⟨-, filled⟩ := Option.filter_eq_some_iff.1 (Option.mem_toList.1 summary)
    simp at filled
  · obtain ⟨e, -, empty⟩ := List.mem_map.1 block
    simp [headed, String.append_eq_empty_iff] at empty

/-- Building the text block by block. -/
theorem text_foldl_append (m : Markdown) (es : Entries Json) :
    (es.foldl (fun m e => m.append (Transform.humanize e.1) (body e.2)) m).blocks =
      m.blocks ++ es.filterMap fun e => block? m.level (Transform.humanize e.1) (body e.2) := by
  induction es generalizing m with
  | nil => simp
  | cons e rest ih =>
      rw [List.foldl_cons, ih, List.filterMap_cons]
      cases found : block? m.level (Transform.humanize e.1) (body e.2) <;> simp [append, found]

/-- The entries in order of the document, each with a value appended to the builder. -/
def assembled (document : Entries Json) : Markdown :=
  (document.filter fun e => e.1 ≠ summaryKey ∧ e.1 ≠ versionKey ∧ ¬ e.2.isNull).foldl
    (fun m e => m.append (Transform.humanize e.1) (body e.2)) (start (preamble document))

theorem text_assembled (document : Entries Json) : (assembled document).text = render document := by
  have blocks : (document.filterMap fun e =>
      if e.1 ≠ summaryKey ∧ e.1 ≠ versionKey ∧ ¬ e.2.isNull then block? 2 (Transform.humanize e.1) (body e.2)
      else none) = document.filterMap entryBlock? := by
    apply List.filterMap_congr
    intro e listed
    rw [entryBlock?]
    by_cases reserved : e.1 = summaryKey ∨ e.1 = versionKey
    · rw [if_pos reserved, if_neg fun kept => reserved.elim kept.1 kept.2.1]
    · obtain ⟨summary, version⟩ := not_or.1 reserved
      rw [if_neg reserved]
      by_cases null : e.2.isNull
      · rw [if_neg fun kept => kept.2.2 null, Json.isNull_iff.1 null]
        rfl
      · rw [if_pos ⟨summary, version, null⟩]
  rw [text, assembled, text_foldl_append, List.filterMap_filter, render, ← blocks]
  simp [start]

/-! ### Entries that come and go -/

instance : DecidablePred Blank := fun _ => decidable_of_iff _ body_eq_empty_iff

instance : DecidablePred Silent := fun _ => inferInstanceAs (Decidable (_ ∧ _))

def visible (document : Entries Json) : Entries Json := document.filter fun e => ¬ Silent e

theorem render_visible (document : Entries Json) : render (visible document) = render document := by
  have summary : summary? (visible document) = summary? document := by
    rw [summary?, visible, Entries.get?_filter, summary?]
    intro value
    simp [Silent]
  have blocks : sections (visible document) = sections document := by
    rw [sections, visible, List.filter_filter, sections]
    refine congrArg (List.map headed) (List.filter_congr fun e listed => ?_)
    have heard : Shown e → ¬ Silent e := by
      rintro ⟨-, version, filled⟩ ⟨-, same | blank⟩
      · exact version same
      · exact filled (body_eq_empty_iff.2 blank)
    by_cases shown : Shown e <;> simp [shown, heard]
  rw [render_eq, render_eq, parts, parts, summary, blocks]

theorem parts_append (document : Entries Json) {more : Entries Json} (plain : ∀ e ∈ more, e.1 ≠ summaryKey) :
    parts (document ++ more) = parts document ++ sections more := by
  have none : more.get? summaryKey = none := by
    induction more with
    | nil => rfl
    | cons e rest ih =>
        rw [Entries.get?, if_neg (plain e List.mem_cons_self)]
        exact ih fun e listed => plain e (List.mem_cons_of_mem _ listed)
  have summary : summary? (document ++ more) = summary? document := by
    rw [summary?, Entries.get?_append, none, Option.or_none, summary?]
  rw [parts, parts, summary, sections, List.filter_append, List.map_append, List.append_assoc]
  rfl

theorem exists_joined_append (xs ys : List String) : ∃ rest, joined (xs ++ ys) = joined xs ++ rest := by
  by_cases none : xs = []
  · exact ⟨joined ys, by simp [none, joined]⟩
  · by_cases none' : ys = []
    · exact ⟨"", by simp [none', joined]⟩
    · refine ⟨"\n\n" ++ joined ys, ?_⟩
      rw [joined, String.intercalate_append_of_ne_nil none none', String.append_assoc, joined, joined]

/-- The text of a document is the summary and one block for each entry with content, in their order, none
of them empty, with a blank line between; that is what the builder makes of the entries. Documents whose
other entries have no content, or are the version, read the same, and further entries add blocks behind. -/
theorem render_document (document : Entries Json) :
    render document = joined (parts document) ∧ "" ∉ parts document ∧
    render document = (assembled document).text ∧
    (∀ v, body v = "" ↔ Blank v) ∧
    (∀ other, visible other = visible document → render other = render document) ∧
    ∀ more : Entries Json, (∀ e ∈ more, e.1 ≠ summaryKey) →
      render (document ++ more) = joined (parts document ++ sections more) ∧
      ∃ rest, render (document ++ more) = render document ++ rest := by
  refine ⟨render_eq document, parts_filled document, (text_assembled document).symm,
    fun v => body_eq_empty_iff, fun other same => ?_, fun more plain => ?_⟩
  · rw [← render_visible other, same, render_visible]
  · have appended : render (document ++ more) = joined (parts document ++ sections more) := by
      rw [render_eq, parts_append document plain]
    rw [appended, render_eq document]
    exact ⟨rfl, exists_joined_append _ _⟩

end Markdown

end Prompt
