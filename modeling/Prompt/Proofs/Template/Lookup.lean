import Prompt.Proofs.Template.Meaning

/-!
# What a template can see

A tree without scoped blocks looks at its data through its own paths only, whatever the values are
(`compile_congr`). Nothing is asked of the values here: they are put in by the last pass that looks at
data, so that a brace in them changes what is printed, but not what is looked up.
-/

namespace Prompt.Template

open BlockKind

namespace Markup

def paths : Markup → List (List Char)
  | done => []
  | text _ rest => rest.paths
  | value tag rest => tag.path :: rest.paths
  | block tag body rest => tag.path :: (body.paths ++ rest.paths)

/-- No block opens a scope of its own. -/
def Unscoped : Markup → Prop
  | done => True
  | text _ rest => rest.Unscoped
  | value _ rest => rest.Unscoped
  | block tag body rest => tag.kind ≠ within ∧ body.Unscoped ∧ rest.Unscoped

theorem expandable_of_unscoped {m : Markup} (unscoped : m.Unscoped) (scope : Json) :
    m.Expandable scope := by
  induction m with
  | done => trivial
  | text words rest ih => exact ih unscoped
  | value tag rest ih => exact ih unscoped
  | block tag body rest bodyIh restIh =>
      obtain ⟨open_kind, inside, behind⟩ := unscoped
      refine ⟨?_, restIh behind⟩
      rw [if_neg open_kind]
      exact bodyIh inside

theorem eval_congr {m : Markup} (unscoped : m.Unscoped) {scope scope' : Json}
    (alike : ∀ path ∈ m.paths, scope'.resolve? path = scope.resolve? path) (loop : Option Binding) :
    m.eval scope' loop = m.eval scope loop := by
  induction m generalizing loop with
  | done => rfl
  | text words rest ih => rw [eval, eval, ih unscoped alike]
  | value tag rest ih =>
      rw [paths, List.forall_mem_cons] at alike
      rw [eval, eval, valueText, valueText, alike.1, ih unscoped alike.2]
  | block tag body rest bodyIh restIh =>
      rw [paths, List.forall_mem_cons, List.forall_mem_append] at alike
      obtain ⟨here, inside, behind⟩ := alike
      obtain ⟨unscopedTag, unscopedBody, unscopedRest⟩ := unscoped
      rw [eval, eval, here, restIh unscopedRest behind]
      congr 1
      cases sort : tag.kind with
      | within => exact absurd sort unscopedTag
      | whenTrue => simp only [bodyIh unscopedBody inside]
      | whenFalse => simp only [bodyIh unscopedBody inside]
      | forEach => simp only [bodyIh unscopedBody inside]

section Unlooped
variable {m : Markup} (distinct : m.Distinct) (unscoped : m.Unscoped)
  (unlooped : ['e', 'a', 'c', 'h'] ∉ m.closeNames)
include distinct unscoped unlooped

theorem expand_of_unlooped (scope : Json) : expand scope m.pieces = m.eval scope none := by
  have expandable := expandable_of_unscoped unscoped scope
  -- Without loops no value is put in before the last pass: the texts before it are those of the tree.
  have tidy : ∀ n, 0 < n → n ≤ 3 → TidyPieces (m.residue n scope none) := fun n started early =>
    (plain_residue started expandable (fun _ => rfl) fun late => absurd late (Nat.not_lt.2 early)).tidy
  have last : m.residue 4 scope none = m.residue 3 scope none :=
    residue_succ forEach rfl unlooped scope none
  have pass := replaceBlocks_residue within (everyBlock_within distinct expandable) []
  rw [List.append_nil, replaceBlocks_nil, List.append_nil] at pass
  change replaceBlocks within _ (m.residue 0 scope none) = source (m.residue 1 scope none) at pass
  rw [expand_eq, ← residue_zero m scope, pass, expandFlat]
  rw [keepWhen_scan _ _ _ (tidy 1 (by decide) (by decide)), keepWhen_whenTrue distinct,
    keepWhen_scan _ _ _ (tidy 2 (by decide) (by decide)), keepWhen_whenFalse distinct,
    repeatEach_scan _ (tidy 3 (by decide) (by decide)), repeatEach_residue distinct,
    interpolate_scan _ (last ▸ tidy 3 (by decide) (by decide)), interpolate_residue]

theorem compile_congr {data data' : Json}
    (alike : ∀ path ∈ m.paths, data'.resolve? path = data.resolve? path) :
    compile (String.ofList m.print) data' = compile (String.ofList m.print) data := by
  simp only [compile, compileChars, String.toList_ofList, print, expand_scan _ m.plain_pieces,
    expand_of_unlooped distinct unscoped unlooped, eval_congr unscoped alike]

end Unlooped

end Markup

end Prompt.Template
