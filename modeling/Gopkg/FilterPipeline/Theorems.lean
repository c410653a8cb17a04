import Mathlib.Data.List.Nodup
import Gopkg.FilterPipeline.Run

/-!
# Theorems about the filter pipeline
-/

namespace Gopkg.FilterPipeline

variable {T M E : Type} {md : M} {f : Filter T M E} {fs : List (Filter T M E)} {items : List T}

/-! ## Runs that do not abort -/

/-- The critical filters all succeed on the items that reach them. -/
def Sound (md : M) (fs : List (Filter T M E)) (items : List T) : Prop :=
  ∀ pre f post, fs = pre ++ f :: post → f.criticality = .critical →
    ∀ err, f.apply (composed md pre items) md ≠ .error err

theorem sound_nil : Sound md ([] : List (Filter T M E)) items := by
  intro pre f post h
  simp at h

theorem sound_cons : Sound md (f :: fs) items ↔
    (f.criticality = .critical → ∀ err, f.apply items md ≠ .error err) ∧ Sound md fs (f.pass md items) := by
  constructor
  · intro h
    refine ⟨h [] f fs rfl, ?_⟩
    intro pre g post hfs
    exact h (f :: pre) g post (by rw [hfs]; rfl)
  · rintro ⟨hhead, htail⟩ pre g post hfs
    cases pre with
    | nil =>
        cases hfs
        exact hhead
    | cons f' pre =>
        cases hfs
        exact htail pre g post rfl

/-- A run that is not sound has a first critical filter that fails. -/
theorem exists_first_failure (h : ¬ Sound md fs items) :
    ∃ pre f post err, fs = pre ++ f :: post ∧ Sound md pre items ∧ f.criticality = .critical ∧
      f.apply (composed md pre items) md = .error err := by
  induction fs generalizing items with
  | nil => exact absurd sound_nil h
  | cons f fs ih =>
      by_cases hhead : f.criticality = .critical → ∀ err, f.apply items md ≠ .error err
      · have htail : ¬ Sound md fs (f.pass md items) := fun htail => h (sound_cons.mpr ⟨hhead, htail⟩)
        obtain ⟨pre, g, post, err, rfl, hpre, hcrit, happly⟩ := ih htail
        exact ⟨f :: pre, g, post, err, rfl, sound_cons.mpr ⟨hhead, hpre⟩, hcrit, happly⟩
      · push Not at hhead
        obtain ⟨hcrit, err, happly⟩ := hhead
        exact ⟨[], f, fs, err, rfl, sound_nil, hcrit, happly⟩

/-! ## Phases -/

/-- Filters in groups, each with the phase of its own. -/
structure Grouped (groups : List (Int × List (Filter T M E))) : Prop where
  phases_nodup : (groups.map (·.1)).Nodup
  phase_eq : ∀ g ∈ groups, ∀ f ∈ g.2, f.phase = g.1

theorem filter_phase_eq_nil {groups : List (Int × List (Filter T M E))} {phase : Int}
    (hphase : ∀ g ∈ groups, ∀ f ∈ g.2, f.phase = g.1) (hne : phase ∉ groups.map (·.1)) :
    (groups.flatMap (·.2)).filter (fun f => f.phase = phase) = [] := by
  rw [List.filter_eq_nil_iff]
  intro f hf
  obtain ⟨g, hg, hfg⟩ := List.mem_flatMap.mp hf
  rw [decide_eq_true_eq, hphase g hg f hfg]
  exact fun heq => hne (heq ▸ List.mem_map_of_mem hg)

/-- A phase picks its own group. -/
theorem Grouped.filter_eq {groups groups' : List (Int × List (Filter T M E))} {g : Int × List (Filter T M E)}
    (h : Grouped (groups ++ g :: groups')) :
    ((groups ++ g :: groups').flatMap (·.2)).filter (fun f => f.phase = g.1) = g.2 := by
  have hnodup := h.phases_nodup
  rw [List.map_append, List.map_cons, List.nodup_middle, List.nodup_cons, List.mem_append, not_or] at hnodup
  have hphase := fun g' hg' => h.phase_eq g' hg'
  rw [List.flatMap_append, List.flatMap_cons, List.filter_append, List.filter_append,
    filter_phase_eq_nil (fun g' hg' => hphase g' (List.mem_append_left _ hg')) hnodup.1.1,
    filter_phase_eq_nil (fun g' hg' => hphase g' (by simp [hg'])) hnodup.1.2, List.nil_append, List.append_nil,
    List.filter_eq_self]
  intro f hf
  exact decide_eq_true (hphase g (by simp) f hf)

/-! ## One filter -/

variable [ToString E] {logs : List StepLog} {err : E}

/-- The entry of a filter, whatever came of it. -/
def entry (md : M) (f : Filter T M E) (items : List T) : StepLog where
  filterName := f.name
  criticality := f.criticality
  phase := f.phase
  beforeCount := items.length
  afterCount := (f.pass md items).length
  removed := items.length - (f.pass md items).length
  skipped := match f.apply items md with
    | .ok _ => false
    | .error _ => f.criticality ≠ .critical
  error := match f.apply items md with
    | .ok _ => ""
    | .error err => toString err

theorem runFilters_abort (happly : f.apply items md = .error err) (hcrit : f.criticality = .critical) :
    runFilters md (f :: fs) items logs = (logs ++ [entry md f items], .error ⟨f.name, err⟩) := by
  simp [runFilters, entry, Filter.pass, happly, hcrit]

/-- A filter that does not abort the run. -/
theorem runFilters_pass (h : f.criticality = .critical → ∀ err, f.apply items md ≠ .error err) :
    runFilters md (f :: fs) items logs = runFilters md fs (f.pass md items) (logs ++ [entry md f items]) := by
  cases happly : f.apply items md with
  | ok result => simp [runFilters, entry, Filter.pass, happly]
  | error err =>
      have hcrit : f.criticality ≠ .critical := fun hcrit => h hcrit err happly
      simp [runFilters, entry, Filter.pass, happly, hcrit]

/-- The log only grows. -/
theorem runFilters_logs (fs : List (Filter T M E)) (items : List T) (logs : List StepLog) :
    runFilters md fs items logs = (logs ++ (runFilters md fs items []).1, (runFilters md fs items []).2) := by
  induction fs generalizing items logs with
  | nil => simp [runFilters]
  | cons f fs ih =>
      by_cases h : f.criticality = .critical → ∀ err, f.apply items md ≠ .error err
      · rw [runFilters_pass h, runFilters_pass h, ih, ih _ ([] ++ _)]
        simp
      · push Not at h
        obtain ⟨hcrit, err, happly⟩ := h
        rw [runFilters_abort happly hcrit, runFilters_abort happly hcrit]
        rfl

/-! ## The log -/

/-- The entries of filters that are run one after the other. -/
def entries (md : M) : List (Filter T M E) → List T → List StepLog
  | [], _ => []
  | f :: fs, items => entry md f items :: entries md fs (f.pass md items)

theorem entries_isFor (fs : List (Filter T M E)) (items : List T) :
    List.Forall₂ StepLog.IsFor (entries md fs items) fs := by
  induction fs generalizing items with
  | nil => exact .nil
  | cons f fs ih => exact .cons ⟨rfl, rfl, rfl⟩ (ih _)

theorem entries_beforeCount (fs : List (Filter T M E)) (items : List T) :
    ∀ l ∈ (entries md fs items).head?, l.beforeCount = items.length := by
  cases fs with
  | nil => simp [entries]
  | cons f fs => simp [entries, entry]

/-- Each filter starts with as many items as the one before has left. -/
theorem entries_isChain (fs : List (Filter T M E)) (items : List T) :
    (entries md fs items).IsChain fun a b => b.beforeCount = a.afterCount := by
  induction fs generalizing items with
  | nil => exact .nil
  | cons f fs ih => exact List.isChain_cons.mpr ⟨entries_beforeCount fs _, ih _⟩

theorem entries_removed (fs : List (Filter T M E)) (items : List T) :
    (items.length : Int) - ((entries md fs items).map (·.removed)).sum = (composed md fs items).length := by
  induction fs generalizing items with
  | nil => simp [entries, composed]
  | cons f fs ih =>
      have hrest := ih (f.pass md items)
      simp only [entries, entry, List.map_cons, List.sum_cons, composed, List.foldl_cons] at hrest ⊢
      omega

theorem entries_append (fs gs : List (Filter T M E)) (items : List T) :
    entries md (fs ++ gs) items = entries md fs items ++ entries md gs (composed md fs items) := by
  induction fs generalizing items with
  | nil => rfl
  | cons f fs ih => exact congrArg _ (ih _)

/-! ## Runs -/

theorem runFilters_append_of_sound (h : Sound md fs items) (gs : List (Filter T M E)) (logs : List StepLog) :
    runFilters md (fs ++ gs) items logs =
      runFilters md gs (composed md fs items) (logs ++ entries md fs items) := by
  induction fs generalizing items logs with
  | nil => simp [entries, composed]
  | cons f fs ih =>
      obtain ⟨hhead, htail⟩ := sound_cons.mp h
      rw [List.cons_append, runFilters_pass hhead, ih htail]
      simp [entries, composed]

theorem runFilters_of_sound (h : Sound md fs items) (logs : List StepLog) :
    runFilters md fs items logs = (logs ++ entries md fs items, .ok (composed md fs items)) := by
  have happend := runFilters_append_of_sound h [] logs
  rwa [List.append_nil] at happend

/-- The filters after the one that aborts the run are not reached. -/
theorem runFilters_of_failure (hpre : Sound md fs items) (hcrit : f.criticality = .critical)
    (happly : f.apply (composed md fs items) md = .error err) (gs : List (Filter T M E)) (logs : List StepLog) :
    runFilters md (fs ++ f :: gs) items logs = (logs ++ entries md (fs ++ [f]) items, .error ⟨f.name, err⟩) := by
  rw [runFilters_append_of_sound hpre, runFilters_abort happly hcrit, entries_append, List.append_assoc]
  rfl

/-- Going on with the items of a run, unless it has an error. -/
def andThen (run : List StepLog × Except (CriticalError E) (List T))
    (next : List T → List StepLog × Except (CriticalError E) (List T)) :
    List StepLog × Except (CriticalError E) (List T) :=
  match run with
  | (logs, .error err) => (logs, .error err)
  | (logs, .ok result) => (logs ++ (next result).1, (next result).2)

theorem runPhases_cons (p : Pipeline T M E) (phase : Int) (phases : List Int) (items : List T) :
    p.runPhases md (phase :: phases) items = andThen (p.runPhase phase items md) (p.runPhases md phases) :=
  rfl

/-- Running two lists of filters is running one after the other. -/
theorem runFilters_append (fs gs : List (Filter T M E)) (items : List T) : runFilters md (fs ++ gs) items [] =
    andThen (runFilters md fs items []) fun result => runFilters md gs result [] := by
  by_cases hsound : Sound md fs items
  · rw [runFilters_append_of_sound hsound, runFilters_of_sound hsound, runFilters_logs]
    rfl
  · obtain ⟨pre, f, post, err, rfl, hpre, hcrit, happly⟩ := exists_first_failure hsound
    rw [List.append_assoc, List.cons_append, runFilters_of_failure hpre hcrit happly,
      runFilters_of_failure hpre hcrit happly]
    rfl

theorem runPhases_eq (groups groups' : List (Int × List (Filter T M E))) {p : Pipeline T M E}
    (h : Grouped (groups ++ groups')) (hp : p.filters = (groups ++ groups').flatMap (·.2)) (items : List T) :
    p.runPhases md (groups'.map (·.1)) items = runFilters md (groups'.flatMap (·.2)) items [] := by
  induction groups' generalizing groups items with
  | nil => rfl
  | cons g groups' ih =>
      have hphase : p.runPhase g.1 items md = runFilters md g.2 items [] := by
        rw [Pipeline.runPhase, Pipeline.run, hp, h.filter_eq]
      have hsnoc : groups ++ g :: groups' = (groups ++ [g]) ++ groups' := by simp
      have hrest := ih (groups ++ [g]) (hsnoc ▸ h) (hsnoc ▸ hp)
      rw [List.map_cons, runPhases_cons, hphase, List.flatMap_cons, runFilters_append]
      exact congrArg (andThen _) (funext hrest)

/-- A run has an error exactly when a critical filter fails, and then its log ends with that filter. Otherwise the items
went through the filters that succeed, with an entry for each filter. Each entry starts from the count that the one
before has left, and what was removed makes up the difference. Filters that are grouped by phase may be run phase by
phase. -/
theorem pipeline_accounts_and_splits (p : Pipeline T M E) (items : List T) (md : M) :
    ((∃ e, (p.run items md).2 = .error e) ↔ ∃ pre f post err, p.filters = pre ++ f :: post ∧
      f.criticality = .critical ∧ f.apply (composed md pre items) md = .error err) ∧
    (∀ e, (p.run items md).2 = .error e → ∃ pre f post, p.filters = pre ++ f :: post ∧
      f.criticality = .critical ∧ f.apply (composed md pre items) md = .error e.cause ∧ e.filter = f.name ∧
      List.Forall₂ StepLog.IsFor (p.run items md).1 (pre ++ [f])) ∧
    (∀ result, (p.run items md).2 = .ok result → result = composed md p.filters items ∧
      List.Forall₂ StepLog.IsFor (p.run items md).1 p.filters ∧
      (∀ l ∈ (p.run items md).1.head?, l.beforeCount = items.length) ∧
      (p.run items md).1.IsChain (fun a b => b.beforeCount = a.afterCount) ∧
      (items.length : Int) - ((p.run items md).1.map (·.removed)).sum = result.length) ∧
    ∀ groups, p.filters = groups.flatMap (·.2) → Grouped groups →
      p.runPhases md (groups.map (·.1)) items = p.run items md := by
  refine ⟨?_, ?_, ?_, ?_⟩
  all_goals unfold Pipeline.run
  · by_cases hsound : Sound md p.filters items
    · rw [runFilters_of_sound hsound]
      constructor
      · rintro ⟨e, he⟩
        cases he
      · rintro ⟨pre, f, post, err, hfs, hcrit, happly⟩
        exact absurd happly (hsound pre f post hfs hcrit err)
    · obtain ⟨pre, f, post, err, hfs, hpre, hcrit, happly⟩ := exists_first_failure hsound
      rw [hfs, runFilters_of_failure hpre hcrit happly]
      exact iff_of_true ⟨_, rfl⟩ ⟨pre, f, post, err, rfl, hcrit, happly⟩
  · intro e he
    by_cases hsound : Sound md p.filters items
    · rw [runFilters_of_sound hsound] at he
      cases he
    · obtain ⟨pre, f, post, err, hfs, hpre, hcrit, happly⟩ := exists_first_failure hsound
      rw [hfs, runFilters_of_failure hpre hcrit happly] at he ⊢
      cases he
      exact ⟨pre, f, post, rfl, hcrit, happly, rfl, entries_isFor _ _⟩
  · intro result hresult
    by_cases hsound : Sound md p.filters items
    · rw [runFilters_of_sound hsound] at hresult ⊢
      cases hresult
      exact ⟨rfl, entries_isFor _ _, entries_beforeCount _ _, entries_isChain _ _, entries_removed _ _⟩
    · obtain ⟨pre, f, post, err, hfs, hpre, hcrit, happly⟩ := exists_first_failure hsound
      rw [hfs, runFilters_of_failure hpre hcrit happly] at hresult
      cases hresult
  · intro groups hp hgrouped
    rw [runPhases_eq [] groups hgrouped hp, hp]

/-- Removes what is empty, in the first phase. -/
def nonEmpty : Filter String Unit String := ⟨"non_empty", .critical, 1, fun items _ => .ok (items.filter (· ≠ ""))⟩

/-- Fails in the second phase. -/
def unavailable : Filter String Unit String := ⟨"ranking", .enrichment, 2, fun _ _ => .error "timeout"⟩

def firstTwo : Filter String Unit String := ⟨"first_two", .critical, 2, fun items _ => .ok (items.take 2)⟩

/-- Three filters in two phases. -/
theorem pipeline_accounts_and_splits_phases :
    (Pipeline.mk [nonEmpty, unavailable, firstTwo]).runPhases () [1, 2] ["a", "", "b", "c"] =
        (Pipeline.mk [nonEmpty, unavailable, firstTwo]).run ["a", "", "b", "c"] () ∧
      ((Pipeline.mk [nonEmpty, unavailable, firstTwo]).run ["a", "", "b", "c"] ()).2 = .ok ["a", "b"] := by
  have hgrouped : Grouped [(1, [nonEmpty]), (2, [unavailable, firstTwo])] :=
    ⟨by decide, by simp [nonEmpty, unavailable, firstTwo]⟩
  exact ⟨(pipeline_accounts_and_splits ⟨[nonEmpty, unavailable, firstTwo]⟩ ["a", "", "b", "c"] ()).2.2.2
    [(1, [nonEmpty]), (2, [unavailable, firstTwo])] rfl hgrouped, rfl⟩

end Gopkg.FilterPipeline
