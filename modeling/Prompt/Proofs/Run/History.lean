import Prompt.Proofs.Run.Grouping

/-!
# What a history leaves new

A longer history leaves no more things new (`isFirstInScope_append`), and what counts as no history has no
entries (`pastEntries_of_blank`). So on a first occurrence every grouping with an id is new, and whatever is
new is a grouping that the subject has (`flags_of_history`).
-/

namespace Prompt

theorem pastEntries_of_blank {history : Option Json} (blank : Json.isTruthy? history = false) :
    pastEntries history = [] := by
  cases history with
  | none => rfl
  | some j =>
      cases j with
      | arr items =>
          cases items with
          | nil => rfl
          | cons entry rest => cases blank
      | _ => rfl

variable {subject : Json} {scope : String}

theorem isFirstInScope_append {past later : List Json}
    (first : isFirstInScope subject (some (.arr (past ++ later))) scope = true) :
    isFirstInScope subject (some (.arr past)) scope = true := by
  obtain ⟨id, grouping, unseen⟩ := isFirstInScope_iff.mp first
  exact isFirstInScope_iff.mpr
    ⟨id, grouping, fun entry member => unseen entry (List.mem_append_left later member)⟩

theorem isFirstInScope_of_blank {history : Option Json} (blank : Json.isTruthy? history = false) :
    isFirstInScope subject history scope = true ↔ Identified subject scope := by
  rw [isFirstInScope_iff, pastEntries_of_blank blank, ← isSome_groupingId?, Option.isSome_iff_exists]
  simp

theorem Loaded.fragment?_withFragment (l : Loaded) (name : String) (value : Json) :
    (l.withFragment name value).fragment? name = some value :=
  Entries.get?_insert_self l.fragments name value

namespace History

theorem isFirstIn_iff {l : Loaded} {source : String} {scopes : List String} :
    (ofLoaded l source scopes).isFirstIn scope = true ↔
      scope ∈ scopes ∧ isFirstInScope l.subject (l.fragment? source) scope = true := by
  rw [isFirstIn, List.contains_iff_mem, ofLoaded, List.mem_filter]

/-- Of two histories of which one goes on where the other ends, the shorter one leaves new whatever the longer
one does. Without a history a grouping is new exactly when it has an id, in every scope that is asked about.
Where a grouping is new, the sections that ask for its relation are active. -/
theorem flags_of_history (l : Loaded) (source : String) (scopes : List String) :
    (∀ past later : List Json,
      let longer := ofLoaded (l.withFragment source (.arr (past ++ later))) source scopes
      let shorter := ofLoaded (l.withFragment source (.arr past)) source scopes
      (longer.firstOccurrence = true → shorter.firstOccurrence = true) ∧
        ∀ scope, longer.isFirstIn scope = true → shorter.isFirstIn scope = true) ∧
    ((ofLoaded l source scopes).firstOccurrence = true → ∀ scope ∈ scopes,
      ((ofLoaded l source scopes).isFirstIn scope = true ↔ Identified l.subject scope)) ∧
    ∀ scope, (ofLoaded l source scopes).isFirstIn scope = true →
      ∀ (c : Context) (s : Section) (policy : UnknownPolicy), c.loaded = l →
        s.condition = .hasRelation scope → (s.activation c policy).activated = true := by
  refine ⟨fun past later => ⟨fun first => ?_, fun scope first => ?_⟩, fun blank scope asked => ?_,
    fun scope first c s policy same asks => ?_⟩
  · rw [ofLoaded, Loaded.fragment?_withFragment] at first ⊢
    cases past with
    | nil => rfl
    | cons entry past => cases first
  · rw [isFirstIn_iff, Loaded.fragment?_withFragment] at first ⊢
    exact ⟨first.1, isFirstInScope_append first.2⟩
  · rw [ofLoaded, Bool.not_eq_true'] at blank
    rw [isFirstIn_iff, and_iff_right asked]
    exact isFirstInScope_of_blank blank
  · rw [Section.activated_of_hasRelation asks, Context.subject, same]
    exact hasGrouping_of_isFirstInScope (isFirstIn_iff.mp first).2

def clubEntry (id : String) : Json := .obj [("clubId", .str id)]

/-- A member of the chess club, with an empty text in the place of a history. -/
def chessPlayer : Loaded where
  subject := .obj [("club", .obj [("id", .str "chess")])]
  fragments := [("calls", .str "")]

theorem flags_of_chessPlayer :
    let flags (l : Loaded) := ofLoaded l "calls" ["club"]
    let after (entries : List Json) := chessPlayer.withFragment "calls" (.arr entries)
    (flags (after ([] ++ []))).firstOccurrence = true ∧ (flags (after [])).firstOccurrence = true ∧
      (flags (after ([clubEntry "go"] ++ [clubEntry "tennis"]))).isFirstIn "club" = true ∧
      (flags (after [clubEntry "go"])).isFirstIn "club" = true ∧
      (flags chessPlayer).firstOccurrence = true ∧ (flags chessPlayer).isFirstIn "club" = true ∧
      ∀ c : Context, c.loaded = chessPlayer →
        (Composer.clubFacts.activation c .failClosed).activated = true := by
  intro flags after
  obtain ⟨shorter, blank, assigned⟩ := flags_of_history chessPlayer "calls" ["club"]
  have fresh : (flags (after ([] ++ []))).firstOccurrence = true := rfl
  have longer : (flags (after ([clubEntry "go"] ++ [clubEntry "tennis"]))).isFirstIn "club" = true := by
    decide
  have identified : Identified chessPlayer.subject "club" :=
    .inr ⟨_, rfl, .inl ⟨.str "chess", rfl, by simp [Json.IsId]⟩⟩
  have first := (blank rfl "club" List.mem_cons_self).mpr identified
  refine ⟨fresh, (shorter _ _).1 fresh, longer, (shorter _ _).2 "club" longer, rfl, first, fun c same => ?_⟩
  exact assigned "club" first c Composer.clubFacts .failClosed same rfl

/-- A club with a name and no id: it is assigned, and nothing came before it, but it is not new. -/
theorem flags_of_named_club :
    let l : Loaded := { subject := .obj [("club", .obj [("name", .str "Chess")])] }
    (ofLoaded l "calls" ["club"]).firstOccurrence = true ∧ Assigned l.subject "club" ∧
      (∀ c : Context, c.loaded = l →
        (Composer.clubFacts.activation c .failClosed).activated = true) ∧
      (ofLoaded l "calls" ["club"]).isFirstIn "club" = false := by
  refine ⟨rfl, .inl rfl, fun c same => ?_, rfl⟩
  rw [Section.activated_of_hasRelation rfl, Context.subject, same]
  rfl

end History

end Prompt
