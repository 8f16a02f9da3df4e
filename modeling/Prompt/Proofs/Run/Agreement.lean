import Prompt.Proofs.Run.Loop
import Prompt.Proofs.Table

/-!
# Contexts that agree on some outputs

Two contexts of runs over the same data decide every section alike (`Alike.activation`) and give the same
input to all sections but those that take the whole context. The whole contexts agree wherever the
outputs do (`AgreeOn.snapshot`), and so does every path that begins there (`AgreeOn.resolve?`).
-/

namespace Prompt

/-! ### Objects that agree on some fields -/

namespace Json

structure AgreeOn (keys : List String) (j j' : Json) : Prop where
  objects : j.isObject = true ∧ j'.isObject = true
  fields : ∀ key ∈ keys, j'.field? key = j.field? key

def pathHead (path : List Char) : String := String.ofList ((Text.splitOnChar '.' path).headD [])

theorem resolve?_of_isObject {j : Json} (object : j.isObject = true) (path : List Char) :
    j.resolve? path = if path.isEmpty then none else
      (j.field? (pathHead path)).bind fun next => next.walk? (Text.splitOnChar '.' path).tail := by
  cases j with
  | obj es =>
      unfold resolve? pathHead
      cases split : Text.splitOnChar '.' path with
      | nil =>
          cases path with
          | nil => rfl
          | cons c rest =>
              rw [Text.splitOnChar] at split
              split at split
              · cases split
              · split at split <;> cases split
      | cons segment rest => rfl
  | _ => cases object

theorem AgreeOn.resolve? {keys : List String} {j j' : Json} (agree : j.AgreeOn keys j')
    {path : List Char} (read : pathHead path ∈ keys) : j'.resolve? path = j.resolve? path := by
  rw [resolve?_of_isObject agree.objects.1, resolve?_of_isObject agree.objects.2,
    agree.fields _ read]

end Json

/-! ### Contexts that agree on some outputs -/

/-- Two contexts in which every section is decided alike. -/
structure Context.Alike (c c' : Context) : Prop where
  loaded : c'.loaded = c.loaded
  subjectKey : c'.subjectKey = c.subjectKey
  firstOccurrence : c'.history.firstOccurrence = c.history.firstOccurrence
  isFirstIn : ∀ scope, c'.history.isFirstIn scope = c.history.isFirstIn scope

structure Context.AgreeOn (keys : List String) (c c' : Context) : Prop extends c.Alike c' where
  tidy : c.outputs.keys.Nodup ∧ c'.outputs.keys.Nodup
  outputs : ∀ key ∈ keys, c'.output? key = c.output? key

namespace Context
variable {keys : List String} {c c' : Context}

theorem AgreeOn.mono {fewer : List String} (agree : c.AgreeOn keys c') (less : fewer ⊆ keys) :
    c.AgreeOn fewer c' :=
  ⟨agree.toAlike, agree.tidy, fun key read => agree.outputs key (less read)⟩

theorem field?_snapshot (tidy : c.outputs.keys.Nodup) (key : String) :
    c.snapshot.field? key =
      (c.output? key).or ((c.loaded.fragments.insert c.subjectKey c.subject).get? key) :=
  Entries.get?_insertAll _ tidy key

theorem AgreeOn.snapshot (agree : c.AgreeOn keys c') : c.snapshot.AgreeOn keys c'.snapshot where
  objects := ⟨rfl, rfl⟩
  fields := by
    intro key read
    rw [field?_snapshot agree.tidy.1, field?_snapshot agree.tidy.2, agree.outputs key read, subject,
      subject, agree.loaded, agree.subjectKey]

theorem Alike.sameData (alike : c.Alike c') : c.SameData { c' with history := c.history } :=
  ⟨alike.loaded, alike.subjectKey, rfl⟩

theorem Alike.source? (alike : c.Alike c') (name : String) : c'.source? name = c.source? name :=
  alike.sameData.source? name

theorem Alike.inputValue (alike : c.Alike c') (name : String) :
    c'.inputValue name = c.inputValue name := by
  simp only [Context.inputValue, derivedGrouping?, subject, alike.source?, alike.loaded]

theorem Alike.resolveInput (alike : c.Alike c') {source : Source} (part : source.isWhole = false) :
    c'.resolveInput source = c.resolveInput source := by
  simp only [Context.resolveInput, part, Bool.false_eq_true, if_false, alike.inputValue]

theorem Alike.activation (alike : c.Alike c') (s : Section) (policy : UnknownPolicy) :
    s.activation c' policy = s.activation c policy := by
  rw [← alike.sameData.activation s policy]
  unfold Section.activation
  cases s.condition with
  | firstOccurrence => simp only [alike.firstOccurrence]
  | firstInScope scope => simp only [alike.isFirstIn]
  | _ => rfl

end Context

end Prompt
