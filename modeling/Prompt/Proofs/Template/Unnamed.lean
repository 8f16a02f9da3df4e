import Prompt.Proofs.Run.Agreement
import Prompt.Proofs.Template.Passes

/-!
# Fields that a template does not name

Tags are looked up by their own text. As long as no pass meets a tag that the template does not have,
a field that the template does not name is never looked up, and its value does not show
(`compile_unnamed`). Values that begin a tag break that: they are looked up like the template
(`compile_note`).
-/

namespace Prompt

namespace Json

/-- Two objects with the same fields, but for one. -/
structure SameBut (name : String) (j j' : Json) : Prop where
  objects : j.isObject = true ∧ j'.isObject = true
  fields : ∀ key ≠ name, j'.field? key = j.field? key

theorem SameBut.resolve? {name : String} {j j' : Json} (same : j.SameBut name j') {path : List Char}
    (other : pathHead path ≠ name) : j'.resolve? path = j.resolve? path := by
  have agree : j.AgreeOn [pathHead path] j' := by
    refine ⟨same.objects, fun key read => ?_⟩
    rw [List.mem_singleton.1 read]
    exact same.fields _ other
  exact agree.resolve? (List.mem_singleton_self _)

theorem headD_splitOnChar_starts (sep : Char) (s : List Char) :
    (Text.splitOnChar sep s).headD [] <+: s := by
  fun_induction Text.splitOnChar sep s with
  | case1 => exact List.nil_prefix
  | case2 rest ih => exact List.nil_prefix
  | case3 c rest other missing ih => exact ⟨rest, rfl⟩
  | case4 c rest other piece pieces found ih =>
      rw [found] at ih
      exact List.cons_prefix_cons.2 ⟨rfl, ih⟩

theorem pathHead_inside (path : List Char) : (pathHead path).toList <:+: path := by
  rw [pathHead, String.toList_ofList]
  exact (headD_splitOnChar_starts '.' path).isInfix

end Json

theorem Entries.get?_insertAll_congr {α : Type} {xs ys : Entries α} {key : String}
    (same : ys.get? key = xs.get? key) (zs : Entries α) :
    (ys.insertAll zs).get? key = (xs.insertAll zs).get? key := by
  induction zs generalizing xs ys with
  | nil => exact same
  | cons e zs ih =>
      refine ih ?_
      rw [get?_insert, get?_insert, same]

namespace Template

open BlockKind

theorem sameBut_mergeScope {name : String} {j j' : Json} (same : j.SameBut name j') (inner : Json) :
    (mergeScope j inner).SameBut name (mergeScope j' inner) := by
  refine ⟨⟨rfl, rfl⟩, fun key other => ?_⟩
  have outer := Entries.get?_insertAll_congr (same.fields key other) inner.entries
  simp only [mergeScope, Json.field?_obj, Entries.get?_insert, outer]

/-! ### What tags name -/

theorem path_inside_of_opening? {rest : List Char} {o : Opening} (found : opening? rest = some o) :
    o.path <:+: rest := by
  simp only [opening?] at found
  split at found
  · next keyed =>
      cases found
      obtain ⟨kind, -, answers⟩ := List.exists_of_findSome?_eq_some keyed
      obtain ⟨path, led, rfl⟩ := Option.map_eq_some_iff.1 answers
      obtain ⟨keyword, -, after⟩ := Option.bind_eq_some_iff.1 led
      obtain ⟨more, rfl, rfl, -⟩ := pathAfter?_eq_some after
      exact (trim_inside more).trans (List.suffix_append _ _).isInfix
  · split at found
    · cases found
      exact List.infix_rfl
    · cases found

theorem path_inside_of_opens {kind : BlockKind} {inner : List Char} {o : Opening}
    (opens : Directive.opening? kind inner = some o) : o.path <:+: inner := by
  unfold Directive.opening? at opens
  split at opens
  · next reads =>
      split at opens
      · cases opens
        obtain ⟨rest, rfl, found⟩ := Directive.of_eq_opens reads
        exact (path_inside_of_opening? found).trans (List.suffix_cons _ _).isInfix
      · cases opens
  · cases opens

theorem path_inside_of_reads {inner path : List Char} (reads : Directive.path? inner = some path) :
    path <:+: inner := by
  unfold Directive.path? at reads
  split at reads
  · next is_variable =>
      cases reads
      rw [(Directive.of_eq_variable is_variable).1]
      exact trim_inside inner
  · cases reads

/-! ### Two runs -/

structure LeadsAlike (data data' : Json) (inner : List Char) : Prop where
  opens : ∀ kind o, Directive.opening? kind inner = some o →
    data'.resolve? o.path = data.resolve? o.path
  value : plainValue? data' inner = plainValue? data inner

section Flat
variable {data data' : Json} {ps : List Piece}
  (alike : ∀ inner, .tag inner ∈ ps → LeadsAlike data data' inner)
include alike

theorem resolve?_of_alike {kind : BlockKind} {inner : List Char} {o : Opening} {body : List Piece}
    (listed : .block inner o body ∈ blocks (Directive.opening? kind) ps) :
    data'.resolve? o.path = data.resolve? o.path := by
  exact (alike inner (tag_mem_of_mem_blocks listed)).opens kind o (opener_of_mem_blocks listed)

theorem keepPieces_congr (kind : BlockKind) (wanted : Bool) :
    keepPieces kind wanted data' ps = keepPieces kind wanted data ps := by
  rw [keepPieces, keepPieces]
  refine overBlocks_congr fun inner o body listed => ?_
  rw [resolve?_of_alike alike listed]

theorem keptPieces_congr : keptPieces data' ps = keptPieces data ps := by
  have kept := fun inner (member : .tag inner ∈ keepPieces whenTrue true data ps) =>
    alike inner (tag_mem_keepPieces member)
  rw [keptPieces, keepPieces_congr alike, keepPieces_congr kept, keptPieces]

theorem loopedPieces_congr : loopedPieces data' ps = loopedPieces data ps := by
  have kept := fun inner (member : .tag inner ∈ keptPieces data ps) =>
    alike inner (tag_mem_keptPieces member)
  rw [loopedPieces, loopedPieces, keptPieces_congr alike]
  refine overBlocks_congr fun inner o body listed => ?_
  rw [iterate, iterate, resolve?_of_alike kept listed]

theorem flatPieces_congr : flatPieces data' ps = flatPieces data ps := by
  rw [flatPieces, flatPieces, loopedPieces_congr alike]
  refine List.map_congr_left fun p member => ?_
  cases p with
  | text chars => rfl
  | tag inner => rw [Piece.fill, Piece.fill, (alike inner (tag_mem_loopedPieces member)).value]

theorem loopValues_congr : loopValues data' ps = loopValues data ps := by
  have kept := fun inner (member : .tag inner ∈ keptPieces data ps) =>
    alike inner (tag_mem_keptPieces member)
  rw [loopValues, loopValues, keptPieces_congr alike]
  refine overBlocks_congr fun inner o body listed => ?_
  rw [iterated, iterated, resolve?_of_alike kept listed]

theorem lastValues_congr : lastValues data' ps = lastValues data ps := by
  rw [lastValues, lastValues, loopedPieces_congr alike]
  refine List.filterMap_congr fun p member => ?_
  cases p with
  | text chars => rfl
  | tag inner => exact (alike inner (tag_mem_loopedPieces member)).value

end Flat

theorem leadsAlike_of_unnamed {name : String} {data data' : Json} (same : data.SameBut name data')
    {inner : List Char} (unnamed : ¬ name.toList <:+: inner) : LeadsAlike data data' inner := by
  have other : ∀ path, path <:+: inner → data'.resolve? path = data.resolve? path := by
    intro path inside
    refine same.resolve? fun here => unnamed ?_
    rw [← here]
    exact (Json.pathHead_inside path).trans inside
  refine ⟨fun kind o opens => other _ (path_inside_of_opens opens), ?_⟩
  unfold plainValue?
  cases reads : Directive.path? inner with
  | none => rfl
  | some path => rw [Option.map_some, Option.map_some, other path (path_inside_of_reads reads)]

theorem forall₂_scopesOf {name : String} {data data' : Json} (same : data.SameBut name data')
    (value : Option Json) :
    List.Forall₂ (Json.SameBut name) (scopesOf data value) (scopesOf data' value) := by
  cases value with
  | none => exact .nil
  | some value =>
      cases value with
      | arr items =>
          rw [scopesOf, scopesOf, List.forall₂_map_left_iff, List.forall₂_map_right_iff]
          exact List.forall₂_same.2 fun item _ => sameBut_mergeScope same item
      | obj fields =>
          simp only [scopesOf]
          split
          · exact .nil
          · exact .cons (sameBut_mergeScope same _) .nil
      | _ => exact .nil

theorem flatMap_congr_of_forall₂ {α β γ : Type} {r : α → β → Prop} {f : α → List γ} {g : β → List γ}
    {xs : List α} {ys : List β} (pairs : List.Forall₂ r xs ys) (same : ∀ x y, r x y → g y = f x) :
    ys.flatMap g = xs.flatMap f := by
  induction pairs with
  | nil => rfl
  | cons here _ ih => rw [List.flatMap_cons, List.flatMap_cons, same _ _ here, ih]

/-- Neither what the pieces become nor what is put in shows a field that no tag names. -/
theorem expandPieces_congr {name : String} {data data' : Json} (same : data.SameBut name data')
    {ps : List Piece} (unnamed : ∀ inner, .tag inner ∈ ps → ¬ name.toList <:+: inner) :
    expandPieces data' ps = expandPieces data ps ∧ earlyValues data' ps = earlyValues data ps ∧
      inserted data' ps = inserted data ps := by
  induction size : ps.length using Nat.strongRecOn generalizing ps data data' with
  | _ size ih =>
    subst size
    have alike : ∀ inner, .tag inner ∈ ps → LeadsAlike data data' inner :=
      fun inner member => leadsAlike_of_unnamed same (unnamed inner member)
    have narrower : ∀ inner o body, .block inner o body ∈ blocks (Directive.opening? within) ps →
        ∀ scope scope', scope.SameBut name scope' →
          expandPieces scope' body = expandPieces scope body ∧
            inserted scope' body = inserted scope body := by
      intro inner o body listed scope scope' same
      obtain ⟨expanded, -, put⟩ := ih body.length (length_body_lt listed) same
        (fun tag member => unnamed tag (body_subset_of_mem_blocks listed member)) rfl
      exact ⟨expanded, put⟩
    have opened : openPieces data' ps = openPieces data ps := by
      refine overBlocks_congr fun inner o body listed => ?_
      rw [scopePieces, scopePieces, resolve?_of_alike alike listed]
      split
      · rfl
      · exact flatMap_congr_of_forall₂ (forall₂_scopesOf same _) fun scope scope' same =>
          (narrower inner o body listed scope scope' same).1
    have left : ∀ inner, .tag inner ∈ openPieces data ps → LeadsAlike data data' inner :=
      fun inner member => alike inner (tag_mem_openPieces member)
    have early : earlyValues data' ps = earlyValues data ps := by
      rw [earlyValues, earlyValues, opened, loopValues_congr left]
      congr 1
      refine overBlocks_congr fun inner o body listed => ?_
      rw [scopeValues, scopeValues, resolve?_of_alike alike listed]
      exact flatMap_congr_of_forall₂ (forall₂_scopesOf same _) fun scope scope' same =>
        (narrower inner o body listed scope scope' same).2
    rw [expandPieces_eq, expandPieces_eq, inserted_eq, inserted_eq, opened, early,
      flatPieces_congr left, lastValues_congr left]
    exact ⟨rfl, rfl, rfl⟩

/-! ### Compiling -/

/-- A field that a template does not name does not show, as long as every opening pair of braces that a
pass meets begins a tag of the template: none stands outside its tags, nor half of one at the end of a
text, and scopes and loops put no such text in. -/
theorem compile_unnamed (template name : String) (data data' : Json) (same : data.SameBut name data')
    (unnamed : ¬ name.toList <:+: template.toList)
    (own : ∀ chars, .text chars ∈ scan template.toList → Inert chars)
    (inert : ∀ chars ∈ earlyValues data (scan template.toList), Inert chars) :
    compile template data' = compile template data := by
  have unnamedTags : ∀ inner, .tag inner ∈ scan template.toList → ¬ name.toList <:+: inner :=
    fun inner member inside => unnamed (inside.trans (inner_inside_of_mem_scan member))
  obtain ⟨expanded, early, -⟩ := expandPieces_congr same unnamedTags
  have first := compileChars_source_early (tidy_scan own) inert
  have second := compileChars_source_early (tidy_scan own) (early ▸ inert)
  rw [source_scan] at first second
  rw [compile, compile, first, second, expanded]

def notesTemplate : String :=
  "\x7b\x7b#each notes\x7d\x7d\x7b\x7bthis\x7d\x7d\x7b\x7b/each\x7d\x7d"

def noted (note secret : String) : Json :=
  .obj [("notes", .arr [.str note]), ("secret", .str secret)]

theorem sameBut_noted (note secret secret' : String) :
    (noted note secret).SameBut "secret" (noted note secret') := by
  refine ⟨⟨rfl, rfl⟩, fun key other => ?_⟩
  simp [noted, Entries.get?, Ne.symm other]

theorem compile_unnamed_notes :
    ¬ "secret".toList <:+: notesTemplate.toList ∧
    (∀ chars, .text chars ∈ scan notesTemplate.toList → Inert chars) ∧
    (∀ chars ∈ earlyValues (noted "tea" "s3") (scan notesTemplate.toList), Inert chars) ∧
    compile notesTemplate (noted "tea" "") = compile notesTemplate (noted "tea" "s3") := by
  have unnamed : ¬ "secret".toList <:+: notesTemplate.toList := by decide
  have pieces : scan notesTemplate.toList = [.text [], .tag "#each notes".toList, .text [],
      .tag "this".toList, .text [], .tag "/each".toList, .text []] := by decide +kernel
  have own : ∀ chars, .text chars ∈ scan notesTemplate.toList → Inert chars := by
    intro chars member
    have blank : chars = [] := by simpa [pieces] using member
    simp [blank]
  have values : earlyValues (noted "tea" "s3") (scan notesTemplate.toList) = ["tea".toList] := by
    decide +kernel
  have inert : ∀ chars ∈ earlyValues (noted "tea" "s3") (scan notesTemplate.toList), Inert chars := by
    rw [values]
    decide
  exact ⟨unnamed, own, inert, compile_unnamed notesTemplate "secret" _ _
    (sameBut_noted "tea" "s3" "") unnamed own inert⟩

/-- A note with a tag in it: the loop puts the tag in and the pass over values looks it up. -/
theorem compile_note :
    (noted "\x7b\x7bsecret\x7d\x7d" "s3").SameBut "secret" (noted "\x7b\x7bsecret\x7d\x7d" "") ∧
    ¬ "secret".toList <:+: notesTemplate.toList ∧
    compile notesTemplate (noted "\x7b\x7bsecret\x7d\x7d" "s3") = "s3" ∧
    compile notesTemplate (noted "\x7b\x7bsecret\x7d\x7d" "") = "" :=
  ⟨sameBut_noted _ _ _, by decide, by decide +kernel, by decide +kernel⟩

end Template
end Prompt
