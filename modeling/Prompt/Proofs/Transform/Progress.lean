import Prompt.Proofs.Decimal.TotalOrder
import Prompt.Proofs.Sorting
import Prompt.Proofs.Transform.Percent
import Prompt.Proofs.Transform.Target

/-!
# The progress through a curriculum

The rows stand in the order of the modules' own numbers (`SortedBy`), and each says of its module whether it is
completed (`moduleStatus_eq_completed_iff`). What is shown as current and next are the first two rows that are
not (`pending_getElem?`).
-/

namespace Prompt.Transform

/-- What the progress of a curriculum holds under the id of a module. -/
def progressEntry (j m : Json) : Json :=
  (((j.field? "progress").getD .null).field? ((textField? m ["id"]).getD "")).getD .null

/-- A status in the progress goes before one in the module. -/
def explicitStatus? (entry m : Json) : Option String :=
  (textField? entry ["status"]).or (textField? m ["status"])

def isFlagged (entry : Json) : Bool :=
  match entry.field? "completed" with
  | some (.bool b) => b
  | _ => false

def moduleRow (j m : Json) : ModuleRow := ModuleRow.ofJson ((j.field? "progress").getD .null) m

/-- The number that a module is sorted by. -/
def placeNumber (m : Json) : Float := (numberField? m ["order"]).getD Decimal.greatest

/-! ### Status -/

theorem ModuleStatus.ofName?_eq_some_iff {name : String} {status : ModuleStatus} :
    ofName? name = some status ↔ name = status.name := by
  unfold ofName?
  split <;> cases status <;> simp_all [ModuleStatus.name]

theorem bind_ofName?_eq_some_iff {explicit : Option String} {status : ModuleStatus} :
    explicit.bind ModuleStatus.ofName? = some status ↔ explicit = some status.name := by
  cases explicit with
  | none => simp
  | some name => simp [ModuleStatus.ofName?_eq_some_iff]

theorem isFlagged_iff {entry : Json} :
    isFlagged entry = true ↔ entry.field? "completed" = some (.bool true) := by
  unfold isFlagged
  split
  · next b flag => simp [flag]
  · next other => exact ⟨nofun, fun flag => (other true flag).elim⟩

theorem moduleStatus_eq (entry m : Json) (mastery : Float) : moduleStatus entry m mastery =
    match (explicitStatus? entry m).bind ModuleStatus.ofName? with
    | some status => status
    | none =>
      if isFlagged entry || masteryComplete ≤ mastery then .completed
      else if 0.0 < mastery then .inProgress else .notStarted := rfl

theorem moduleStatus_eq_completed_iff {entry m : Json} {mastery : Float} :
    moduleStatus entry m mastery = .completed ↔ explicitStatus? entry m = some "completed" ∨
      explicitStatus? entry m ≠ some "in_progress" ∧ explicitStatus? entry m ≠ some "not_started" ∧
        (entry.field? "completed" = some (.bool true) ∨ masteryComplete ≤ mastery) := by
  rw [moduleStatus_eq]
  cases named : (explicitStatus? entry m).bind ModuleStatus.ofName? with
  | some status =>
      rw [bind_ofName?_eq_some_iff.mp named]
      cases status <;> simp [ModuleStatus.name]
  | none =>
      have unsaid (status : ModuleStatus) : explicitStatus? entry m ≠ some status.name := fun own =>
        absurd (bind_ofName?_eq_some_iff.mpr own) (by simp [named])
      have silent : explicitStatus? entry m ≠ some "completed" := unsaid .completed
      have neither : explicitStatus? entry m ≠ some "in_progress" ∧
          explicitStatus? entry m ≠ some "not_started" := ⟨unsaid .inProgress, unsaid .notStarted⟩
      rw [or_iff_right silent, ← and_assoc, and_iff_right neither, ← isFlagged_iff]
      dsimp only
      split
      · next finished => simpa using finished
      · next short =>
          rw [Bool.or_eq_true, decide_eq_true_iff] at short
          simp only [short, iff_false]
          split <;> simp

/-! ### Rows -/

theorem field?_status_toJson (r : ModuleRow) :
    r.toJson.field? "status" = some (.str "completed") ↔ r.status = .completed := by
  change some (Json.str r.status.name) = _ ↔ _
  cases r.status <;> simp [ModuleStatus.name]

/-- The row in front of which so many rows are not completed, and which is not completed itself; null if no
row is that far. -/
inductive Pending (rows : List ModuleRow) (n : Nat) : Json → Prop
  | row {before after : List ModuleRow} {r : ModuleRow} (split : rows = before ++ r :: after)
      (pending : r.status ≠ .completed) (place : before.countP (fun r => r.status ≠ .completed) = n) :
      Pending rows n r.toJson
  | none (few : rows.countP (fun r => r.status ≠ .completed) ≤ n) : Pending rows n .null

theorem pending_getElem? (rows : List ModuleRow) (n : Nat) :
    Pending rows n (((rows.filter fun r => r.status ≠ .completed)[n]?.map ModuleRow.toJson).getD .null) := by
  cases found : (rows.filter fun r => r.status ≠ .completed)[n]? with
  | none =>
      refine .none ?_
      rw [List.countP_eq_length_filter]
      exact List.getElem?_eq_none_iff.mp found
  | some r =>
      obtain ⟨bound, here⟩ := List.getElem?_eq_some_iff.mp found
      have cut : rows.filter (fun r => r.status ≠ .completed) =
          (rows.filter fun r => r.status ≠ .completed).take n ++
            r :: (rows.filter fun r => r.status ≠ .completed).drop (n + 1) := by
        rw [← here, List.getElem_cons_drop, List.take_append_drop]
      obtain ⟨before, after, split, first, pending, -⟩ := exists_split_of_filter cut
      refine .row split (of_decide_eq_true pending) ?_
      rw [List.countP_eq_length_filter, first, List.length_take, Nat.min_eq_left bound.le]

theorem Pending.eq_null_iff {rows : List ModuleRow} {current : Json} (pending : Pending rows 0 current) :
    current = .null ↔ ∀ r ∈ rows, r.status = .completed := by
  cases pending with
  | row split pending place =>
      refine ⟨nofun, fun all => absurd (all _ ?_) pending⟩
      rw [split]
      exact List.mem_append_right _ List.mem_cons_self
  | none few =>
      rw [eq_self_iff_true, true_iff]
      have absent := List.countP_eq_zero.mp (Nat.le_zero.mp few)
      exact fun r member => by simpa using absent r member

/-! ### The report -/

theorem isFinite_placeNumber {m : Json} (sound : m.Sound) : (placeNumber m).isFinite = true := by
  unfold placeNumber
  cases number : numberField? m ["order"] with
  | none => exact Decimal.isFinite_greatest
  | some x => exact isFinite_numberField? sound number

theorem sortedBy_orderModules (modules : List Json) :
    SortedBy moduleOrder modules (orderModules modules) :=
  sortedBy_mergeSort moduleOrder modules

def moduleRows (j : Json) (modules : List Json) : List ModuleRow := (orderModules modules).map (moduleRow j)

theorem length_moduleRows (j : Json) (modules : List Json) : (moduleRows j modules).length = modules.length := by
  rw [moduleRows, List.length_map, (sortedBy_orderModules modules).perm.length_eq]

theorem mem_moduleRows {j : Json} {modules : List Json} {r : ModuleRow} :
    r ∈ moduleRows j modules ↔ ∃ m ∈ modules, moduleRow j m = r := by
  simp only [moduleRows, List.mem_map, (sortedBy_orderModules modules).perm.mem_iff]

theorem countP_moduleRows (p : ModuleRow → Bool) (j : Json) (modules : List Json) :
    (moduleRows j modules).countP p = modules.countP fun m => p (moduleRow j m) := by
  rw [moduleRows, List.countP_map, (sortedBy_orderModules modules).perm.countP_eq]
  rfl

section Report
variable (c : Context) {j : Json} {modules : List Json}
  (listed : j.field? "modules" = some (.arr modules)) (filled : modules ≠ [])
include listed filled

theorem exists_report : ∃ current next, Pending (moduleRows j modules) 0 current ∧
    Pending (moduleRows j modules) 1 next ∧ moduleProgress c j =
      .obj [("domain", .ofString? ((c.output? "domain").bind fun d => textField? d ["name"])),
        ("modules", .arr ((moduleRows j modules).map ModuleRow.toJson)),
        ("completedCount", .ofNat ((moduleRows j modules).countP fun r => r.status = .completed)),
        ("totalCount", .ofNat modules.length),
        ("percentComplete", .ofNat
          (percent ((moduleRows j modules).countP fun r => r.status = .completed) modules.length)),
        ("currentModule", current), ("nextModule", next)] := by
  refine ⟨_, _, pending_getElem? _ 0, pending_getElem? _ 1, ?_⟩
  have list : listField j "modules" = modules := by rw [listField, listed]; rfl
  have some : (orderModules modules).isEmpty = false := by
    rw [List.isEmpty_eq_false_iff, ← List.length_pos_iff, (sortedBy_orderModules modules).perm.length_eq,
      List.length_pos_iff]
    exact filled
  rw [← length_moduleRows j, List.countP_eq_length_filter, moduleProgress, list]
  dsimp only
  rw [some]
  rfl

end Report

/-- There is one row for each module, in the order of their numbers; the report counts the rows and those of
them that are completed, and shows the first two that are not. A module without a number goes by the greatest
double. -/
theorem moduleProgress_rows (c : Context) {j : Json} {modules : List Json}
    (listed : j.field? "modules" = some (.arr modules)) (filled : modules ≠ []) :
    ∃ (ordered : List Json) (rows : List ModuleRow) (current next : Json),
      SortedBy moduleOrder modules ordered ∧ rows = ordered.map (moduleRow j) ∧
      Pending rows 0 current ∧ Pending rows 1 next ∧
      (moduleProgress c j).field? "modules" = some (.arr (rows.map ModuleRow.toJson)) ∧
      (moduleProgress c j).field? "totalCount" = some (.ofNat modules.length) ∧
      (moduleProgress c j).field? "completedCount" =
        some (.ofNat (rows.countP fun r => r.status = .completed)) ∧
      (moduleProgress c j).field? "currentModule" = some current ∧
      (moduleProgress c j).field? "nextModule" = some next ∧
      (∀ r ∈ rows, r.toJson.field? "status" = some (.str "completed") ↔ r.status = .completed) ∧
      (∀ m ∈ modules, (moduleRow j m).status = .completed ↔
        explicitStatus? (progressEntry j m) m = some "completed" ∨
        explicitStatus? (progressEntry j m) m ≠ some "in_progress" ∧
          explicitStatus? (progressEntry j m) m ≠ some "not_started" ∧
          ((progressEntry j m).field? "completed" = some (.bool true) ∨
            masteryComplete ≤ (moduleRow j m).mastery)) ∧
      (j.Sound → ∀ m ∈ modules, ∀ m' ∈ modules,
        (moduleOrder m ≤ moduleOrder m' ↔ Decimal.TotalLe (placeNumber m) (placeNumber m')) ∧
        (numberField? m' ["order"] = none → Decimal.TotalLe (placeNumber m) (placeNumber m'))) := by
  obtain ⟨current, next, first, second, report⟩ := exists_report c listed filled
  refine ⟨orderModules modules, moduleRows j modules, current, next, sortedBy_orderModules modules, rfl,
    first, second, ?_, ?_, ?_, ?_, ?_, fun r _ => field?_status_toJson r, fun m _ => moduleStatus_eq_completed_iff,
    fun sound m member m' member' => ?_⟩
  case refine_6 =>
      have sounds := sound_items (sound_field? sound listed)
      have finite := isFinite_placeNumber (sounds m member)
      have finite' := isFinite_placeNumber (sounds m' member')
      refine ⟨Decimal.rank_le_rank_iff finite finite', fun unplaced => ?_⟩
      rw [← Decimal.rank_le_rank_iff finite finite', placeNumber, placeNumber, unplaced]
      exact Decimal.rank_le_rank_greatest finite
  all_goals
    rw [report]
    rfl

def spanishModules : List Json := [
  .obj [("id", .str "m3"), ("name", .str "Travel"), ("order", .num (.int 3))],
  .obj [("id", .str "m1"), ("name", .str "Greetings"), ("order", .num (.int 1))],
  .obj [("id", .str "m2"), ("name", .str "Food"), ("order", .num (.int 2))]]

def spanish : Json :=
  .obj [("modules", .arr spanishModules),
    ("progress", .obj [("m1", .obj [("mastery", .num (.double 0.92))]),
      ("m2", .obj [("mastery", .num (.double 0.3))])])]

def learner : Context := { loaded := { subject := .obj [] }, subjectKey := "caller" }

theorem sound_spanish : spanish.Sound := by
  have mastered (x : Float) (finite : x.isFinite = true) : (Json.obj [("mastery", .num (.double x))]).Sound :=
    .obj (by simp [Entries.keys]) (by simpa using .double finite)
  have listed : (Json.arr spanishModules).Sound := by
    refine .arr ?_
    simp only [spanishModules, List.forall_mem_cons, List.not_mem_nil, false_implies, implies_true, and_true]
    refine ⟨.obj (by decide) ?_, .obj (by decide) ?_, .obj (by decide) ?_⟩ <;>
      simp only [List.forall_mem_cons, List.not_mem_nil, false_implies, implies_true, and_true] <;>
      exact ⟨.str _, .str _, .int (by decide) (by decide)⟩
  refine .obj (by decide) ?_
  simp only [List.forall_mem_cons, List.not_mem_nil, false_implies, implies_true, and_true]
  refine ⟨listed, .obj (by decide) ?_⟩
  simp only [List.forall_mem_cons, List.not_mem_nil, false_implies, implies_true, and_true]
  exact ⟨mastered 0.92 (by decide +kernel), mastered 0.3 (by decide +kernel)⟩

theorem moduleProgress_rows_spanish :
    spanish.field? "modules" = some (.arr spanishModules) ∧ spanishModules ≠ [] ∧ spanish.Sound ∧
    ∃ ordered, SortedBy moduleOrder spanishModules ordered ∧
      (moduleProgress learner spanish).field? "modules" =
        some (.arr (ordered.map fun m => (moduleRow spanish m).toJson)) ∧
      (moduleProgress learner spanish).field? "completedCount" = some (.ofNat 1) ∧
      ∀ m ∈ spanishModules, ∀ m' ∈ spanishModules,
        moduleOrder m ≤ moduleOrder m' ↔ Decimal.TotalLe (placeNumber m) (placeNumber m') := by
  have filled : spanishModules ≠ [] := List.cons_ne_nil _ _
  obtain ⟨ordered, rows, current, next, sorted, rfl, -, -, shown, -, completed, -, -, -, -, places⟩ :=
    moduleProgress_rows learner (j := spanish) rfl filled
  refine ⟨rfl, filled, sound_spanish, ordered, sorted, ?_, ?_, fun m member m' member' =>
    (places sound_spanish m member m' member').1⟩
  · rw [shown, List.map_map]
    rfl
  · rw [completed, List.countP_map, sorted.perm.countP_eq]
    have one : spanishModules.countP ((fun r => decide (r.status = .completed)) ∘ moduleRow spanish) = 1 := by
      decide +kernel
    rw [one]

/-! ### The percentage -/

/-- How many modules are left. -/
def leftCount (j : Json) (modules : List Json) : Nat :=
  modules.countP fun m => (moduleRow j m).status ≠ .completed

theorem length_sub_countP (j : Json) (modules : List Json) :
    modules.length - (moduleRows j modules).countP (fun r => r.status = .completed) = leftCount j modules := by
  have parts : modules.length = _ :=
    List.length_eq_countP_add_countP fun m => decide ((moduleRow j m).status = .completed)
  simp only [decide_eq_true_eq] at parts
  rw [countP_moduleRows]
  exact Nat.sub_eq_of_eq_add (parts.trans (Nat.add_comm ..))

/-- No module is current exactly when all are completed, and then the percentage is 100. It is 100 too where no
more than one module in two hundred is left, which takes two hundred modules. Among very many modules doubles no
longer tell that share from the next, but they do not miss it by much. -/
theorem moduleProgress_percent (c : Context) {j : Json} {modules : List Json}
    (listed : j.field? "modules" = some (.arr modules)) (filled : modules ≠ []) :
    ∃ (rounded : Nat) (current : Json),
      (moduleProgress c j).field? "percentComplete" = some (.ofNat rounded) ∧
      (moduleProgress c j).field? "currentModule" = some current ∧
      rounded ≤ 100 ∧
      (current = .null ↔ ∀ m ∈ modules, (moduleRow j m).status = .completed) ∧
      (current = .null → rounded = 100) ∧
      (modules.length < 200 → (rounded = 100 ↔ current = .null)) ∧
      (modules.length < 2 ^ 46 → (rounded = 100 ↔ 200 * leftCount j modules ≤ modules.length)) ∧
      (modules.length < 2 ^ 64 → (201 * leftCount j modules ≤ modules.length → rounded = 100) ∧
        (rounded = 100 → 199 * leftCount j modules ≤ modules.length)) := by
  obtain ⟨current, next, first, -, report⟩ := exists_report c listed filled
  obtain ⟨done, here⟩ : ∃ n, n = (moduleRows j modules).countP fun r => r.status = .completed := ⟨_, rfl⟩
  have least : done ≤ modules.length := by
    rw [here, ← length_moduleRows j]
    exact List.countP_le_length
  have left : leftCount j modules = modules.length - done := by rw [here, length_sub_countP]
  have some := List.length_pos_iff.mpr filled
  have all : current = .null ↔ ∀ m ∈ modules, (moduleRow j m).status = .completed := by
    rw [first.eq_null_iff]
    simp only [mem_moduleRows, forall_exists_index, and_imp, forall_apply_eq_imp_iff₂]
  have none : current = .null ↔ leftCount j modules = 0 := by
    rw [all, leftCount, List.countP_eq_zero]
    simp only [decide_eq_true_eq, not_not]
  refine ⟨percent done modules.length, current, ?_, ?_, percent_le least some, all, ?_, ?_, ?_, ?_⟩
  · rw [report, here]
    rfl
  · rw [report]
    rfl
  · intro null
    have whole : done = modules.length := by
      have nothing := none.mp null
      omega
    rw [whole, percent_self some]
  · intro short
    rw [percent_eq_hundred_iff least some (by omega), none]
    omega
  · intro few
    rw [left, percent_eq_hundred_iff least some few]
  · intro fits
    rw [left]
    exact ⟨percent_eq_hundred_of_le least some fits, le_of_percent_eq_hundred least some fits⟩

theorem moduleProgress_percent_spanish :
    spanish.field? "modules" = some (.arr spanishModules) ∧ spanishModules ≠ [] ∧ ∃ rounded,
      (moduleProgress learner spanish).field? "percentComplete" = some (.ofNat rounded) ∧ rounded < 100 := by
  have filled : spanishModules ≠ [] := List.cons_ne_nil _ _
  obtain ⟨rounded, current, shown, -, most, -, -, -, full, -⟩ :=
    moduleProgress_percent learner (j := spanish) rfl filled
  have two : leftCount spanish spanishModules = 2 := by decide +kernel
  refine ⟨rfl, filled, rounded, shown, lt_of_le_of_ne most fun whole => ?_⟩
  have few := (full (by decide)).mp whole
  rw [two] at few
  exact absurd few (by decide)

def finishedModule : Json := .obj [("status", .str "completed")]

def freshModule : Json := .obj []

/-- All but one of two hundred modules are completed. -/
def nearlyDone : Json := .obj [("modules", .arr (List.replicate 199 finishedModule ++ [freshModule]))]

theorem percentComplete_nearlyDone :
    (moduleProgress learner nearlyDone).field? "percentComplete" = some (.ofNat 100) ∧
      (moduleProgress learner nearlyDone).field? "currentModule" ≠ some .null := by
  have some : List.replicate 199 finishedModule ++ [freshModule] ≠ [] := List.append_ne_nil_of_right_ne_nil _ nofun
  obtain ⟨current, next, first, -, report⟩ := exists_report learner (j := nearlyDone) rfl some
  have done : (moduleRow nearlyDone finishedModule).status = .completed := by decide +kernel
  have fresh : (moduleRow nearlyDone freshModule).status = .notStarted := by decide +kernel
  have counted : (moduleRows nearlyDone (List.replicate 199 finishedModule ++ [freshModule])).countP
      (fun r => r.status = .completed) = 199 := by
    rw [countP_moduleRows, List.countP_append, List.countP_replicate, done, List.countP_singleton, fresh]
    rfl
  have rounded : percent 199 200 = 100 := by rw [percent_eq (by decide) (by decide) (by decide) (by decide)]
  rw [report, counted, List.length_append, List.length_replicate, List.length_singleton, rounded]
  refine ⟨rfl, fun null => ?_⟩
  have all := first.eq_null_iff.mp (Option.some.inj null) (moduleRow nearlyDone freshModule)
    (mem_moduleRows.mpr ⟨freshModule, List.mem_append_right _ List.mem_cons_self, rfl⟩)
  rw [fresh] at all
  cases all

end Prompt.Transform
