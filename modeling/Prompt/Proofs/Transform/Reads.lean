import Prompt.Proofs.Run.Agreement
import Prompt.Proofs.Template.Lookup
import Prompt.Transform.Builtin

/-!
# What transforms look at

Some transforms look up outputs of other sections, by their keys in the context, or as fields of their
input when that is the whole context. `Builtin.reads` lists the keys of each one; on contexts that agree
there it gives the same result (`run_congr`, `run_whole_congr`), and so does a chain of them
(`reads_of_isTraceable`).
-/

namespace Prompt

namespace Transform

/-- The outputs that a transform looks up, in the context or in the whole context as its input. -/
def Builtin.reads : Builtin → List String
  | moduleProgress => ["domain"]
  | domainWelcome => ["domain", "caller", "curriculum"]
  | firstCall => ["caller", "domain"]
  | voiceGuidance => ["behaviorTargets", "personality"]
  | sessionPlan => ["curriculum", "learnerGoals", "callHistory", "memories", "firstCall"]
  | instructions =>
    ["caller", "identity", "personality", "memories", "voiceGuidance", "firstCall", "domain"]
  | quickStart =>
    ["caller", "domain", "sessionPlan", "firstCall", "identity", "content", "memories"]
  | _ => []

/-! ### In the context -/

theorem Builtin.run_congr (b : Builtin) {c c' : Context} (agree : c.AgreeOn b.reads c') (j : Json) :
    b.run c' j = b.run c j := by
  have output {key : String} (read : key ∈ b.reads) : c'.output? key = c.output? key :=
    agree.outputs key read
  cases b with
  | moduleProgress => simp only [run, Transform.moduleProgress, output (by decide : "domain" ∈ _)]
  | domainWelcome =>
      simp only [run, Transform.domainWelcome, output (by decide : "domain" ∈ _),
        output (by decide : "caller" ∈ _), output (by decide : "curriculum" ∈ _)]
  | firstCall =>
      simp only [run, Transform.firstCall, output (by decide : "caller" ∈ _),
        output (by decide : "domain" ∈ _)]
  | voiceGuidance =>
      simp only [run, Transform.voiceGuidance, voiceAttributes, voiceCatalogue,
        agree.toAlike.source?, output (by decide : "behaviorTargets" ∈ _),
        output (by decide : "personality" ∈ _)]
  | _ => rfl

/-! ### The template of the headline -/

def headline : Template.Markup :=
  .block ⟨"#if caller.name".toList, ⟨.whenTrue, "caller.name".toList⟩, by decide⟩
    (.text ⟨"Call with ".toList, by decide⟩ <|
      .value ⟨"caller.name".toList, "caller.name".toList, by decide⟩ .done) <|
  .block ⟨"#unless caller.name".toList, ⟨.whenFalse, "caller.name".toList⟩, by decide⟩
    (.text ⟨"Call".toList, by decide⟩ .done) <|
  .block ⟨"#if domain.name".toList, ⟨.whenTrue, "domain.name".toList⟩, by decide⟩
    (.text ⟨" about ".toList, by decide⟩ <|
      .value ⟨"domain.name".toList, "domain.name".toList, by decide⟩ .done) <|
  .text ⟨".".toList, by decide⟩ <|
  .block ⟨"#if sessionPlan.focus".toList, ⟨.whenTrue, "sessionPlan.focus".toList⟩, by decide⟩
    (.text ⟨" Focus: ".toList, by decide⟩ <|
      .value ⟨"sessionPlan.focus".toList, "sessionPlan.focus".toList, by decide⟩ <|
      .text ⟨".".toList, by decide⟩ .done) <|
  .block ⟨"#if firstCall".toList, ⟨.whenTrue, "firstCall".toList⟩, by decide⟩
    (.text ⟨" First call.".toList, by decide⟩ .done)
  .done

theorem print_headline : String.ofList headline.print = headlineTemplate := by
  decide +kernel

theorem distinct_headline : headline.Distinct := by
  simp [headline, Template.Markup.Distinct, Template.Markup.closeNames, Template.BlockTag.closeName,
    Template.Opening.closeName, Template.BlockKind.keyword?]

theorem unscoped_headline : headline.Unscoped := by
  simp [headline, Template.Markup.Unscoped, Template.BlockTag.kind]

theorem pathHead_headline {path : List Char} (named : path ∈ headline.paths) :
    Json.pathHead path ∈ ["caller", "domain", "sessionPlan", "firstCall"] := by
  have heads : headline.paths.map Json.pathHead = ["caller", "caller", "caller", "domain", "domain",
    "sessionPlan", "sessionPlan", "firstCall"] := by rfl
  have member := List.mem_map_of_mem (f := Json.pathHead) named
  rw [heads] at member
  simpa using member

theorem compile_headline_congr {keys : List String} {all all' : Json} (agree : all.AgreeOn keys all')
    (read : ["caller", "domain", "sessionPlan", "firstCall"] ⊆ keys) :
    Template.compile headlineTemplate all' = Template.compile headlineTemplate all := by
  rw [← print_headline]
  apply Template.Markup.compile_congr distinct_headline unscoped_headline
  · decide
  · intro path named
    exact agree.resolve? (read (pathHead_headline named))

/-! ### In the whole context -/

section Whole
variable {keys : List String} {all all' : Json}

theorem textAt?_congr (agree : all.AgreeOn keys all') {path : String}
    (read : Json.pathHead path.toList ∈ keys) : textAt? all' path = textAt? all path := by
  rw [textAt?, textAt?, agree.resolve? read]

theorem countAt_congr (agree : all.AgreeOn keys all') {path : String}
    (read : Json.pathHead path.toList ∈ keys) : countAt all' path = countAt all path := by
  rw [countAt, countAt, agree.resolve? read]

theorem isFirstCall_congr (agree : all.AgreeOn keys all') (read : "firstCall" ∈ keys) :
    isFirstCall all' = isFirstCall all := by
  rw [isFirstCall, isFirstCall, agree.fields _ read]

theorem sessionPlan_congr (agree : all.AgreeOn Builtin.sessionPlan.reads all') :
    sessionPlan all' = sessionPlan all := by
  have text {path : String} (read : Json.pathHead path.toList ∈ Builtin.sessionPlan.reads) :=
    textAt?_congr agree read
  have memories : all'.resolve? "memories._all".toList = all.resolve? "memories._all".toList :=
    agree.resolve? (by decide)
  simp only [sessionPlan, focus, openingStep, quotedMemories, memories,
    isFirstCall_congr agree (by decide),
    text (by decide : Json.pathHead "curriculum.currentModule.name".toList ∈ _),
    text (by decide : Json.pathHead "learnerGoals.active.0.name".toList ∈ _),
    text (by decide : Json.pathHead "callHistory.recent.0.summary".toList ∈ _)]

theorem instructions_congr (agree : all.AgreeOn Builtin.instructions.reads all') :
    instructions all' = instructions all := by
  have text {path : String} (read : Json.pathHead path.toList ∈ Builtin.instructions.reads) :=
    textAt?_congr agree read
  have count {path : String} (read : Json.pathHead path.toList ∈ Builtin.instructions.reads) :=
    countAt_congr agree read
  simp only [instructions, isFirstCall_congr agree (by decide),
    text (by decide : Json.pathHead "caller.firstName".toList ∈ _),
    text (by decide : Json.pathHead "identity.name".toList ∈ _),
    text (by decide : Json.pathHead "personality.summary".toList ∈ _),
    text (by decide : Json.pathHead "domain.name".toList ∈ _),
    count (by decide : Json.pathHead "memories.totalCount".toList ∈ _),
    count (by decide : Json.pathHead "voiceGuidance.count".toList ∈ _)]

theorem quickStart_congr (agree : all.AgreeOn Builtin.quickStart.reads all') :
    quickStart all' = quickStart all := by
  have text {path : String} (read : Json.pathHead path.toList ∈ Builtin.quickStart.reads) :=
    textAt?_congr agree read
  simp only [quickStart, isFirstCall_congr agree (by decide),
    compile_headline_congr agree (by decide),
    text (by decide : Json.pathHead ("caller" ++ ".name").toList ∈ _),
    text (by decide : Json.pathHead ("domain" ++ ".name").toList ∈ _),
    text (by decide : Json.pathHead ("identity" ++ ".name").toList ∈ _),
    text (by decide : Json.pathHead ("content" ++ ".name").toList ∈ _),
    text (by decide : Json.pathHead "sessionPlan.focus".toList ∈ _),
    countAt_congr agree (by decide : Json.pathHead "memories.totalCount".toList ∈ _)]

end Whole

def Builtin.isComposite : Builtin → Bool
  | sessionPlan | instructions | quickStart => true
  | _ => false

theorem Builtin.run_whole_congr {b : Builtin} (composite : b.isComposite = true) {all all' : Json}
    (agree : all.AgreeOn b.reads all') (c c' : Context) : b.run c' all' = b.run c all := by
  cases b with
  | sessionPlan => exact sessionPlan_congr agree
  | instructions => exact instructions_congr agree
  | quickStart => exact quickStart_congr agree
  | _ => cases composite

end Transform

/-! ### Chains of builtins -/

namespace Registry
open Transform

theorem get?_builtin (name : String) :
    Entries.get? builtin name = (Builtin.ofName? name).map Builtin.run := by
  have table : builtin = Builtin.all.map fun b => (b.name, b.run) := by rfl
  rw [table, Builtin.ofName?]
  induction Builtin.all with
  | nil => rfl
  | cons b rest ih =>
      rw [List.map_cons, Entries.get?, List.find?_cons, ih]
      by_cases same : b.name = name
      · simp [same]
      · simp [same, beq_eq_false_iff_ne.mpr same]

theorem value_apply_builtin (c : Context) (names : List String) (input : Json) :
    (builtin.apply c names input).value =
      (names.filterMap Builtin.ofName?).foldl (fun j b => b.run c j) input := by
  have registered : names.filterMap (Entries.get? builtin) =
      (names.filterMap Builtin.ofName?).map Builtin.run := by
    rw [List.map_filterMap]
    exact List.filterMap_congr fun name _ => get?_builtin name
  rw [value_apply, registered, List.foldl_map]

theorem apply_eq_of_value {registry : Registry} {c c' : Context} {names : List String}
    {input input' : Json}
    (same : (registry.apply c' names input').value = (registry.apply c names input).value) :
    registry.apply c' names input' = registry.apply c names input := by
  have missing := (registry.missing_apply c' names input').trans
    (registry.missing_apply c names input).symm
  cases result : registry.apply c' names input'
  cases result' : registry.apply c names input
  simp_all

end Registry

/-! ### Section by section -/

namespace Section
open Transform

/-- What a section makes of its input depends on no other outputs than those under some keys. -/
def Reads (registry : Registry) (s : Section) (keys : List String) : Prop :=
  ∀ c c', c.AgreeOn keys c' →
    registry.apply c' s.transformNames (c'.resolveInput s.source) =
      registry.apply c s.transformNames (c.resolveInput s.source)

def builtins (s : Section) : List Builtin := s.transformNames.filterMap Builtin.ofName?

def reads (s : Section) : List String := s.builtins.flatMap Builtin.reads

/-- The whole context goes to none but a transform whose lookups are known. -/
def isTraceable (s : Section) : Bool :=
  !s.source.isWhole || s.builtins.head?.any Builtin.isComposite

theorem foldl_run_congr {bs : List Builtin} {c c' : Context}
    (agree : c.AgreeOn (bs.flatMap Builtin.reads) c') (input : Json) :
    bs.foldl (fun j b => b.run c' j) input = bs.foldl (fun j b => b.run c j) input := by
  induction bs generalizing input with
  | nil => rfl
  | cons b rest ih =>
      have first : c.AgreeOn b.reads c' := agree.mono (List.subset_append_left _ _)
      have behind : c.AgreeOn (rest.flatMap Builtin.reads) c' :=
        agree.mono (List.subset_append_right _ _)
      rw [List.foldl_cons, List.foldl_cons, b.run_congr first, ih behind]

theorem reads_of_isTraceable {s : Section} (traceable : s.isTraceable = true) :
    s.Reads .builtin s.reads := by
  intro c c' agree
  apply Registry.apply_eq_of_value
  rw [Registry.value_apply_builtin, Registry.value_apply_builtin]
  change s.builtins.foldl _ _ = s.builtins.foldl _ _
  cases whole : s.source.isWhole with
  | false => rw [agree.resolveInput whole, foldl_run_congr agree]
  | true =>
      have input (c : Context) : c.resolveInput s.source = c.snapshot := by
        simp only [Context.resolveInput, whole, if_true]
      unfold reads at agree
      rw [isTraceable, whole] at traceable
      rw [input, input]
      cases chain : s.builtins with
      | nil => simp [chain] at traceable
      | cons b rest =>
          rw [chain] at agree traceable
          have first : c.AgreeOn b.reads c' := agree.mono (List.subset_append_left _ _)
          have behind : c.AgreeOn (rest.flatMap Builtin.reads) c' :=
            agree.mono (List.subset_append_right _ _)
          rw [List.foldl_cons, List.foldl_cons, Builtin.run_whole_congr traceable first.snapshot c c',
            foldl_run_congr behind]

end Section

end Prompt
