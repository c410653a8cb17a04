import Gopkg.Clock.Timers
import Gopkg.Lts.Slots

/-!
# Theorems about the mock clock
-/

namespace Gopkg.Clock

open Lts

variable {T D : Type} {tm : Times T D} {now : T} {timer : Timer T} {s : Timers T}

/-! ## A timer looks at the clock -/

theorem tick_of_due (hfired : timer.fired = none) (hdue : tm.Due timer.deadline now) :
    timer.tick tm now = { timer with fired := some now } :=
  if_pos ⟨hfired, hdue⟩

theorem tick_of_fired (hfired : timer.fired ≠ none) : timer.tick tm now = timer :=
  if_neg fun h => hfired h.1

theorem tick_of_early (hearly : tm.after timer.deadline now = true) : timer.tick tm now = timer :=
  if_neg fun h => absurd (hearly.symm.trans h.2) (by decide)

theorem tick_quiet (h : timer.fired = none → tm.after timer.deadline now = true) : timer.tick tm now = timer := by
  cases hfired : timer.fired with
  | none => exact tick_of_early (h hfired)
  | some t => exact tick_of_fired (by simp [hfired])

theorem quiet_tick (timer : Timer T) (h : (timer.tick tm now).fired = none) :
    tm.after (timer.tick tm now).deadline now = true := by
  by_cases hdue : timer.fired = none ∧ tm.Due timer.deadline now
  · rw [tick_of_due hdue.1 hdue.2] at h
    cases h
  · rw [Timer.tick, if_neg hdue] at h ⊢
    simpa [Times.Due, h] using hdue

/-- Over a list of times a timer goes off at the first that is due. -/
theorem foldl_tick_fired (ts : List T) (timer : Timer T) :
    (ts.foldl (fun timer t => timer.tick tm t) timer).fired =
      timer.fired.or (ts.find? fun t => !tm.after timer.deadline t) := by
  induction ts generalizing timer with
  | nil => simp
  | cons t ts ih =>
      rw [List.foldl_cons, ih]
      cases hfired : timer.fired with
      | some t' => rw [tick_of_fired (by simp [hfired]), hfired]; rfl
      | none =>
          cases hafter : tm.after timer.deadline t with
          | true => simp [tick_of_early hafter, hfired, hafter]
          | false => simp [tick_of_due hfired hafter, hafter]

/-! ## Sends -/

section Sends

variable {chans : List (List T)}

/-- Sends on different channels, all of them empty, do not block. -/
theorem sends_eq (ws : List (Waiter T)) (t : T) (hnodup : (ws.map (·.ch)).Nodup)
    (hempty : ∀ w ∈ ws, chans[w.ch]? = some []) :
    ∃ chans', ws.foldlM (fun chans w => send chans w.ch t) chans = some chans' ∧
      ∀ i, chans'[i]? = if i ∈ ws.map (·.ch) then some [t] else chans[i]? := by
  induction ws generalizing chans with
  | nil => exact ⟨chans, rfl, fun i => by simp⟩
  | cons w ws ih =>
      rw [List.map_cons, List.nodup_cons] at hnodup
      have hw := hempty w List.mem_cons_self
      have hsend : send chans w.ch t = some (chans.set w.ch [t]) := by simp [send, hw]
      have hrest : ∀ w' ∈ ws, (chans.set w.ch [t])[w'.ch]? = some [] := by
        intro w' hw'
        have hne : w.ch ≠ w'.ch := fun heq => hnodup.1 (heq ▸ List.mem_map_of_mem hw')
        rw [List.getElem?_set_ne hne]
        exact hempty w' (List.mem_cons_of_mem _ hw')
      obtain ⟨chans', hfold, hget⟩ := ih hnodup.2 hrest
      refine ⟨chans', by rw [List.foldlM_cons, hsend]; exact hfold, fun i => ?_⟩
      rw [hget]
      by_cases hi : i = w.ch
      · subst hi
        simp [hnodup.1, getElem?_set_slot hw]
      · simp [hi, List.getElem?_set_ne (Ne.symm hi)]

end Sends

/-! ## The waiters are the timers that have not gone off -/

structure Waiting (ws : List (Waiter T)) (timers : List (Timer T)) : Prop where
  nodup : (ws.map (·.ch)).Nodup
  mem : ∀ w, w ∈ ws ↔ timers[w.ch]? = some ⟨w.deadline, none⟩

namespace Waiting

variable {ws : List (Waiter T)} {timers : List (Timer T)} {deadline t : T}

theorem lt_length (h : Waiting ws timers) {w : Waiter T} (hw : w ∈ ws) : w.ch < timers.length :=
  (List.getElem?_eq_some_iff.mp ((h.mem w).mp hw)).1

theorem snoc_fired (h : Waiting ws timers) : Waiting ws (timers ++ [⟨deadline, some t⟩]) where
  nodup := h.nodup
  mem := by
    intro w
    constructor
    · intro hw
      rw [List.getElem?_append_left (h.lt_length hw)]
      exact (h.mem w).mp hw
    · intro hget
      rcases getElem?_snoc_cases hget with ⟨_, heq⟩ | hold
      · cases heq
      · exact (h.mem w).mpr hold

theorem snoc (h : Waiting ws timers) :
    Waiting (ws ++ [⟨deadline, timers.length⟩]) (timers ++ [⟨deadline, none⟩]) where
  nodup := by
    rw [List.map_append, List.nodup_append]
    refine ⟨h.nodup, by simp, ?_⟩
    intro ch hch ch' hch'
    obtain ⟨w, hw, rfl⟩ := List.mem_map.mp hch
    rw [List.mem_singleton.mp hch']
    exact Nat.ne_of_lt (h.lt_length hw)
  mem := by
    intro w
    rw [List.mem_append, List.mem_singleton]
    constructor
    · rintro (hw | rfl)
      · rw [List.getElem?_append_left (h.lt_length hw)]
        exact (h.mem w).mp hw
      · exact List.getElem?_concat_length
    · intro hget
      rcases getElem?_snoc_cases hget with ⟨hch, heq⟩ | hold
      · cases w
        cases heq
        exact .inr (congrArg _ hch)
      · exact .inl ((h.mem w).mpr hold)

/-- The timers that are not due keep waiting. -/
theorem tick (h : Waiting ws timers) (now : T) :
    Waiting (ws.filter fun w => tm.after w.deadline now) (timers.map (Timer.tick tm now)) where
  nodup := h.nodup.sublist (List.filter_sublist.map _)
  mem := by
    intro w
    rw [List.mem_filter, h.mem, List.getElem?_map, Option.map_eq_some_iff]
    constructor
    · rintro ⟨hget, hafter⟩
      exact ⟨_, hget, tick_of_early hafter⟩
    · rintro ⟨timer, hget, htick⟩
      by_cases hdue : timer.fired = none ∧ tm.Due timer.deadline now
      · rw [tick_of_due hdue.1 hdue.2] at htick
        simp at htick
      · have hafter := quiet_tick timer (congrArg Timer.fired htick)
        rw [htick] at hafter
        rw [Timer.tick, if_neg hdue] at htick
        exact ⟨htick ▸ hget, hafter⟩

/-- Sending to the timers that are due makes of each channel what its timer has. -/
theorem fire (h : Waiting ws timers) (tm : Times T D) (now : T) :
    (ws.filter fun w => !tm.after w.deadline now).foldlM (fun chans w => send chans w.ch now)
        (timers.map (·.fired.toList)) =
      some ((timers.map (Timer.tick tm now)).map (·.fired.toList)) := by
  have hempty : ∀ w ∈ ws.filter fun w => !tm.after w.deadline now,
      (timers.map (·.fired.toList))[w.ch]? = some [] := by
    intro w hw
    simp [(h.mem w).mp (List.mem_filter.mp hw).1]
  have hnodup : ((ws.filter fun w => !tm.after w.deadline now).map (·.ch)).Nodup :=
    h.nodup.sublist (List.filter_sublist.map _)
  obtain ⟨chans', hfold, hget⟩ := sends_eq _ now hnodup hempty
  rw [hfold]
  congr 1
  apply List.ext_getElem?
  intro i
  rw [hget, List.getElem?_map, List.getElem?_map, List.getElem?_map]
  cases hi : timers[i]? with
  | none =>
      refine if_neg fun hmem => ?_
      obtain ⟨w, hw, rfl⟩ := List.mem_map.mp hmem
      have := (h.mem w).mp (List.mem_filter.mp hw).1
      rw [hi] at this
      cases this
  | some timer =>
      by_cases hdue : timer.fired = none ∧ tm.Due timer.deadline now
      · have hw : ⟨timer.deadline, i⟩ ∈ ws := by
          rw [h.mem, hi, ← hdue.1]
        have hmem : i ∈ (ws.filter fun w => !tm.after w.deadline now).map (·.ch) :=
          List.mem_map.mpr ⟨_, List.mem_filter.mpr ⟨hw, by simpa [Times.Due] using hdue.2⟩, rfl⟩
        simp [hmem, tick_of_due hdue.1 hdue.2]
      · rw [if_neg, Option.map_some, Option.map_some, Option.map_some, Timer.tick, if_neg hdue]
        intro hmem
        obtain ⟨w, hw, rfl⟩ := List.mem_map.mp hmem
        obtain ⟨hmem, hafter⟩ := List.mem_filter.mp hw
        have hget := (h.mem w).mp hmem
        rw [hi, Option.some_inj] at hget
        subst hget
        exact hdue ⟨rfl, by simpa [Times.Due] using hafter⟩

end Waiting

/-! ## The clock keeps its timers -/

variable {m : Mock T}

structure Mock.Refines (tm : Times T D) (m : Mock T) (s : Timers T) : Prop where
  now : m.now = s.now
  valid : m.waiters.Valid m.heap
  waiting : Waiting (m.waiters.read m.heap) s.timers
  chans : m.chans = s.timers.map (·.fired.toList)
  quiet : ∀ timer ∈ s.timers, timer.fired = none → tm.after timer.deadline s.now = true

theorem refines_newMock (tm : Times T D) (start : T) : (newMock tm start).Refines tm ⟨(newMock tm start).now, []⟩ where
  now := rfl
  valid := Slice.valid_nil
  waiting := ⟨List.nodup_nil, fun w => by simp [newMock]⟩
  chans := rfl
  quiet _ htimer := absurd htimer List.not_mem_nil

/-- After they have looked, no timer is due. -/
theorem quiet_ticked (timers : List (Timer T)) (now : T) : ∀ timer ∈ timers.map (Timer.tick tm now),
    timer.fired = none → tm.after timer.deadline now = true := by
  intro timer htimer hfired
  obtain ⟨timer, _, rfl⟩ := List.mem_map.mp htimer
  exact quiet_tick timer hfired

section Calls

variable [Inhabited T]

/-- The call of `After` returns the channel of the new timer. -/
theorem Mock.Refines.after (h : m.Refines tm s) (grow : Nat → Nat → Nat) (d : D) :
    ∃ m', m.after tm grow d = some (s.timers.length, m') ∧ m'.Refines tm (s.call tm (.after d)) := by
  have hlength : m.chans.length = s.timers.length := by simp [h.chans]
  have hstill : s.timers.map (Timer.tick tm s.now) = s.timers :=
    List.map_congr_left (fun timer htimer => tick_quiet (h.quiet timer htimer)) |>.trans (List.map_id' _)
  have htimers : (s.call tm (.after d)).timers = s.timers ++ [Timer.tick tm s.now ⟨tm.add s.now d, none⟩] := by
    simp [Timers.call, setTimers, Op.time, hstill]
  have hvalid := h.valid.append grow [(⟨tm.add s.now d, s.timers.length⟩ : Waiter T)]
  have hread := h.valid.read_append grow [(⟨tm.add s.now d, s.timers.length⟩ : Waiter T)]
  cases hafter : tm.after (tm.add s.now d) s.now with
  | true =>
      rw [tick_of_early hafter] at htimers
      refine ⟨_, by simp only [Mock.after, hlength, h.now, hafter]; rfl, ?_⟩
      exact
        { now := rfl
          valid := hvalid
          waiting := by rw [htimers, hread]; exact h.waiting.snoc
          chans := by simp [htimers, h.chans]
          quiet := quiet_ticked _ _ }
  | false =>
      have htick : Timer.tick tm s.now ⟨tm.add s.now d, none⟩ = ⟨tm.add s.now d, some s.now⟩ :=
        tick_of_due rfl hafter
      rw [htick] at htimers
      have hsend : send (m.chans ++ [[]]) s.timers.length s.now = some (m.chans ++ [[s.now]]) := by
        simp [send, ← hlength]
      refine ⟨_, by simp only [Mock.after, hlength, h.now, hafter, hsend]; rfl, ?_⟩
      -- the waiter that was appended is cut off again
      have hlen : (m.waiters.append grow [⟨tm.add s.now d, s.timers.length⟩] m.heap).1.len - 1 = m.waiters.len := by
        rw [← hvalid.length_read, hread, List.length_append, h.valid.length_read]
        rfl
      have hle : m.waiters.len ≤ (m.waiters.append grow [⟨tm.add s.now d, s.timers.length⟩] m.heap).1.len := by
        omega
      exact
        { now := rfl
          valid := by rw [hlen]; exact hvalid.upTo hle
          waiting := by
            rw [hlen, Slice.read_upTo hle, hread, ← h.valid.length_read, List.take_left, htimers]
            exact h.waiting.snoc_fired
          chans := by simp [htimers, h.chans]
          quiet := quiet_ticked _ _ }

/-- The sweep of `Advance`, which also follows a move of the clock. -/
theorem advance_refines {timers : List (Timer T)} (hvalid : m.waiters.Valid m.heap)
    (hwaiting : Waiting (m.waiters.read m.heap) timers) (hchans : m.chans = timers.map (·.fired.toList))
    (grow : Nat → Nat → Nat) (d : D) :
    ∃ m', m.advance tm grow d = some m' ∧
      m'.Refines tm ⟨tm.add m.now d, timers.map (Timer.tick tm (tm.add m.now d))⟩ := by
  obtain ⟨hswept, hkept, hfire⟩ := hvalid.sweep grow fun w : Waiter T => tm.after w.deadline (tm.add m.now d)
  refine ⟨_, by simp only [Mock.advance, hfire, hchans, hwaiting.fire tm (tm.add m.now d)]; rfl, ?_⟩
  exact
    { now := rfl
      valid := hswept
      waiting := by rw [hkept]; exact hwaiting.tick _
      chans := rfl
      quiet := quiet_ticked _ _ }

theorem Mock.Refines.call (h : m.Refines tm s) (grow : Nat → Nat → Nat) (op : Op T D) :
    ∃ m', m.call tm grow op = some m' ∧ m'.Refines tm (s.call tm op) := by
  cases op with
  | after d =>
      obtain ⟨m', hafter, href⟩ := h.after grow d
      exact ⟨m', by simp [Mock.call, hafter], href⟩
  | advance d =>
      obtain ⟨m', hadvance, href⟩ := advance_refines h.valid h.waiting h.chans grow d
      exact ⟨m', hadvance, by simpa [Timers.call, setTimers, Op.time, h.now] using href⟩
  | set t =>
      obtain ⟨m', hset, href⟩ := advance_refines (m := { m with now := t }) h.valid h.waiting h.chans grow tm.zero
      exact ⟨m', hset, by simpa [Timers.call, setTimers, Op.time, tm.add_zero] using href⟩

/-- No call blocks. -/
theorem Mock.Refines.run (h : m.Refines tm s) (grow : Nat → Nat → Nat) (ops : List (Op T D)) :
    ∃ m', m.run tm grow ops = some m' ∧ m'.Refines tm (ops.foldl (Timers.call tm) s) := by
  induction ops generalizing m s with
  | nil => exact ⟨m, rfl, h⟩
  | cons op ops ih =>
      obtain ⟨m₁, hcall, href₁⟩ := h.call grow op
      obtain ⟨m', hrun, href'⟩ := ih href₁
      refine ⟨m', ?_, href'⟩
      rw [Mock.run, List.foldlM_cons, hcall]
      exact hrun

end Calls

/-! ## What becomes of a timer -/

theorem foldl_call_now (s : Timers T) (ops : List (Op T D)) :
    (ops.foldl (Timers.call tm) s).now = ops.foldl (fun now op => op.time tm now) s.now := by
  induction ops generalizing s with
  | nil => rfl
  | cons op ops ih => exact ih _

/-- Each call lets a timer look at the clock once. -/
theorem foldl_call_timer {i : Nat} (ops : List (Op T D)) (hi : s.timers[i]? = some timer) :
    (ops.foldl (Timers.call tm) s).timers[i]? =
      some ((times tm s.now ops).tail.foldl (fun timer t => timer.tick tm t) timer) := by
  induction ops generalizing s timer with
  | nil => exact hi
  | cons op ops ih =>
      have hlt := (List.getElem?_eq_some_iff.mp hi).1
      have hcall : (s.call tm op).timers[i]? = some (timer.tick tm (op.time tm s.now)) := by
        rw [Timers.call, List.getElem?_map, List.getElem?_append_left hlt, hi]
        rfl
      rw [List.foldl_cons, ih hcall]
      cases ops <;> rfl

/-- A new timer looks at the clock at once, and then after each call. -/
theorem foldl_call_new (s : Timers T) (d : D) (ops : List (Op T D)) :
    (ops.foldl (Timers.call tm) (s.call tm (.after d))).timers[s.timers.length]? =
      some ((times tm s.now ops).foldl (fun timer t => timer.tick tm t) ⟨tm.add s.now d, none⟩) := by
  have hnew : (s.call tm (.after d)).timers[s.timers.length]? =
      some (Timer.tick tm s.now ⟨tm.add s.now d, none⟩) := by
    simp [Timers.call, setTimers, Op.time]
  rw [foldl_call_timer ops hnew]
  cases ops <;> rfl

/-- The calls never block, and no waiter is due after them. The channel that a call of `After` returns is sent one
value, the first of the times from then on that is not before the deadline, and nothing if there is none. -/
theorem every_timer_fires_once [Inhabited T] (tm : Times T D) (grow : Nat → Nat → Nat) (start : T) :
    (∀ ops, ∃ m, (newMock tm start).run tm grow ops = some m ∧
      m.now = ops.foldl (fun now op => op.time tm now) (newMock tm start).now ∧
      ∀ w ∈ m.waiters.read m.heap, tm.after w.deadline m.now = true) ∧
    ∀ pre d post, ∃ m ch m₁ m₂, (newMock tm start).run tm grow pre = some m ∧
      m.after tm grow d = some (ch, m₁) ∧ m₁.run tm grow post = some m₂ ∧
      m₂.chans[ch]? =
        some ((times tm m.now post).find? fun t => !tm.after (tm.add m.now d) t).toList := by
  constructor
  · intro ops
    obtain ⟨m, hrun, href⟩ := (refines_newMock tm start).run grow ops
    refine ⟨m, hrun, href.now.trans (foldl_call_now _ ops), fun w hw => ?_⟩
    have hget := (href.waiting.mem w).mp hw
    rw [href.now]
    exact href.quiet _ (List.mem_of_getElem? hget) rfl
  · intro pre d post
    obtain ⟨m, hrun, href⟩ := (refines_newMock tm start).run grow pre
    obtain ⟨m₁, hafter, href₁⟩ := href.after grow d
    obtain ⟨m₂, hpost, href₂⟩ := href₁.run grow post
    refine ⟨m, _, m₁, m₂, hrun, hafter, hpost, ?_⟩
    rw [href₂.chans, List.getElem?_map, foldl_call_new, href.now, Option.map_some, foldl_tick_fired, Option.none_or]

/-- Seconds since the zero time. -/
def seconds : Times Int Int where
  add := (· + ·)
  after t u := decide (u < t)
  isZero t := decide (t = 0)
  epoch := 62135596800
  zero := 0
  add_zero := Int.add_zero

/-- A timer of five seconds fires when three seconds and then four have gone by, and not again after that. -/
theorem every_timer_fires_once_seven : ∃ m m₁ m₂ : Mock Int,
    (newMock seconds 0).run seconds (fun cap _ => cap) [] = some m ∧
    m.after seconds (fun cap _ => cap) 5 = some (0, m₁) ∧
    m₁.run seconds (fun cap _ => cap) [.advance 3, .advance 4, .advance 9] = some m₂ ∧
    m₂.chans[0]? = some [62135596807] := by
  obtain ⟨m, ch, m₁, m₂, hrun, hafter, hpost, hsent⟩ :=
    (every_timer_fires_once seconds (fun cap _ => cap) 0).2 [] 5 [.advance 3, .advance 4, .advance 9]
  cases hrun
  obtain ⟨rfl, rfl⟩ := Prod.mk.inj (Option.some.inj hafter)
  exact ⟨_, _, m₂, rfl, hafter, hpost, hsent⟩

end Gopkg.Clock
