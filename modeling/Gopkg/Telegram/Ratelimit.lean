import Mathlib.Data.List.Induction
import Gopkg.Lts.Run
import Gopkg.Redis.SortedSet

/-!
# Rate limiter of the bot

`communication/telegram/bot/ratelimit/limiter.go`, for one user: the calls share one key. Times are in milliseconds
since the Unix epoch. A call sends its four commands to Redis in one pipeline.
-/

namespace Gopkg.Telegram.Ratelimit

open Lts Redis

structure RateLimiter where
  maxPerMin : Int
  deriving DecidableEq, Repr

def newRateLimiter (maxPerMin : Int) : RateLimiter := { maxPerMin := if maxPerMin ≤ 0 then 20 else maxPerMin }

def minute : Int := 60000

/-- What Redis holds under the key of the user: the readings of the calls, and when the key expires. -/
structure Key where
  set : SortedSet Int
  expiresAt : Int

/-- The set that a command finds at the time `now`. -/
def Key.find (key : Option Key) (now : Int) : SortedSet Int :=
  match key with
  | some k => if now < k.expiresAt then k.set else .empty
  | none => .empty

/-- The pipeline of a call. -/
def pipeline (key : Option Key) (now : Int) : Key where
  set := ((Key.find key now).removeByScore 0 (now - minute)).add now now
  expiresAt := now + 2 * minute

/-- How Redis answers the pipeline. One that is answered with an error may have taken effect all the same. -/
inductive Reply where
  | ok
  | error (err : String) (done : Bool)
  deriving DecidableEq, Repr

/-- `Allow`: whether the call is let through, with the error, and the key after it. It fails open. -/
def RateLimiter.allow (rl : RateLimiter) (key : Option Key) (now : Int) : Reply → (Bool × Option String) × Option Key
  | .ok =>
      let k := pipeline key now
      ((decide (k.set.card ≤ rl.maxPerMin), none), some k)
  | .error err done => ((true, some err), if done then some (pipeline key now) else key)

/-- A call with its reading of the clock and what it returned. -/
structure Call where
  now : Int
  allowed : Bool
  err : Option String
  deriving DecidableEq, Repr

inductive Step (rl : RateLimiter) : Option Key → List Call → Option Key → Prop
  | R_Allow {key key' : Option Key} {allowed : Bool} {err : Option String} (now : Int) (reply : Reply) :
      rl.allow key now reply = ((allowed, err), key') → Step rl key [⟨now, allowed, err⟩] key'

/-- The calls that were let through in the minute from `start` on. -/
def admitted (start : Int) (t : List Call) : List Call :=
  t.filter fun x => x.allowed && decide (start ≤ x.now) && decide (x.now < start + minute)

/-! ## What the set holds -/

variable {rl : RateLimiter} {key key' : Option Key} {t evs : List Call}

/-- The set holds the readings of the calls of the last minute, as members and as scores. -/
structure Recent (t : List Call) (key : Option Key) : Prop where
  score : ∀ k ∈ key, ∀ p ∈ k.set.entries, p.1 = p.2
  recent : ∀ now, (∀ x ∈ t, x.now ≤ now) → ∀ x ∈ t, now - minute < x.now → x.now ∈ (Key.find key now).members

theorem Recent.find_score (h : Recent t key) (now : Int) : ∀ p ∈ (Key.find key now).entries, p.1 = p.2 := by
  intro p hp
  cases key with
  | none => cases hp
  | some k =>
      simp only [Key.find] at hp
      split at hp
      · exact h.score k rfl p hp
      · cases hp

theorem Recent.pipeline_score (h : Recent t key) (now : Int) : ∀ p ∈ (pipeline key now).set.entries, p.1 = p.2 := by
  intro p hp
  rcases SortedSet.mem_add.mp hp with rfl | ⟨hp, _⟩
  · rfl
  · exact h.find_score now p (SortedSet.mem_removeByScore.mp hp).1

/-- After the pipeline of a call the set has its reading and those of the minute before it. -/
theorem Recent.mem_pipeline (h : Recent t key) {now n : Int} (hclock : ∀ x ∈ t, x.now ≤ now)
    (hn : n = now ∨ ∃ x ∈ t, x.now = n ∧ now - minute < n) : n ∈ (pipeline key now).set.members := by
  by_cases heq : n = now
  · exact List.mem_map.mpr ⟨(now, now), SortedSet.mem_add.mpr (.inl rfl), heq.symm⟩
  · rcases hn with hn | ⟨x, hx, rfl, hlt⟩
    · exact absurd hn heq
    · obtain ⟨p, hp, hpn⟩ := List.mem_map.mp (h.recent now hclock x hx hlt)
      have hscore := h.find_score now p hp
      have hkept : ¬ (0 ≤ p.2 ∧ p.2 ≤ now - minute) := by omega
      refine List.mem_map.mpr ⟨p, SortedSet.mem_add.mpr (.inr ⟨SortedSet.mem_removeByScore.mpr ⟨hp, hkept⟩, ?_⟩), hpn⟩
      rwa [hpn]

theorem Recent.call (h : Recent t key) {now : Int} (hclock : ∀ x ∈ t, x.now ≤ now) {x : Call} (hx : x.now = now) :
    Recent (t ++ [x]) (some (pipeline key now)) := by
  refine ⟨?_, fun later hlater y hy hlt => ?_⟩
  · rintro k ⟨⟩
    exact h.pipeline_score now
  · have hle : now ≤ later := hx ▸ hlater x (List.mem_append_right t List.mem_cons_self)
    have hn : y.now = now ∨ ∃ z ∈ t, z.now = y.now ∧ now - minute < y.now := by
      rcases List.mem_append.mp hy with hy | hy
      · exact .inr ⟨y, hy, rfl, by omega⟩
      · exact .inl (by rw [List.mem_singleton.mp hy, hx])
    have hmem := h.mem_pipeline hclock hn
    -- the key expires two minutes after the call, and `y` is from the last minute
    have hbound : y.now ≤ now := by
      rcases hn with hn | ⟨z, hz, hzy, _⟩
      · exact Int.le_of_eq hn
      · exact hzy ▸ hclock z hz
    have halive : later < now + 2 * minute := by
      unfold minute at *
      omega
    simp only [Key.find, pipeline, halive, ↓reduceIte]
    exact hmem

/-- The readings of the calls that were let through are those of one minute, and all of them are in the set. -/
theorem Recent.admitted_le (h : Recent t key) {now start : Int} (hclock : ∀ x ∈ t, x.now ≤ now) {x : Call}
    (hx : x.now = now) (hin : start ≤ now ∧ now < start + minute)
    (hdistinct : ((admitted start (t ++ [x])).map Call.now).Nodup) :
    (admitted start (t ++ [x])).length ≤ (pipeline key now).set.card := by
  refine (List.length_map Call.now).symm ▸ SortedSet.length_le_card _ hdistinct fun n hn => ?_
  obtain ⟨y, hy, rfl⟩ := List.mem_map.mp hn
  obtain ⟨hy, hwindow⟩ := List.mem_filter.mp hy
  simp only [Bool.and_eq_true, decide_eq_true_eq] at hwindow
  refine h.mem_pipeline hclock ?_
  rcases List.mem_append.mp hy with hy | hy
  · exact .inr ⟨y, hy, rfl, by omega⟩
  · exact .inl (by rw [List.mem_singleton.mp hy, hx])

/-! ## Runs -/

theorem admitted_snoc_of_refused {x : Call} {start : Int}
    (h : ¬ (x.allowed = true ∧ start ≤ x.now ∧ x.now < start + minute)) :
    admitted start (t ++ [x]) = admitted start t := by
  have hx : (x.allowed && decide (start ≤ x.now) && decide (x.now < start + minute)) = false := by
    refine Bool.eq_false_iff.mpr fun hx => h ?_
    simpa [and_assoc] using hx
  simp [admitted, hx]

/-- A call that is answered is the pipeline and the comparison of the count with the limit. -/
theorem Step.answered {x : Call} (hs : Step rl key [x] key') (herr : x.err = none) :
    key' = some (pipeline key x.now) ∧ (x.allowed = true → (pipeline key x.now).set.card ≤ rl.maxPerMin) := by
  cases hs with
  | R_Allow now reply h =>
      cases reply with
      | ok =>
          cases h
          exact ⟨rfl, of_decide_eq_true⟩
      | error err done =>
          cases h
          cases herr

theorem Step.event (hs : Step rl key evs key') : ∃ x, evs = [x] := by
  cases hs with
  | R_Allow now reply h => exact ⟨_, rfl⟩

theorem Recent.run (hr : Run (Step rl) none t key) (herr : ∀ x ∈ t, x.err = none)
    (hclock : (t.map Call.now).Pairwise (· ≤ ·)) : Recent t key ∧
      ∀ start, ((admitted start t).map Call.now).Nodup → (admitted start t).length ≤ max 0 rl.maxPerMin := by
  induction hr with
  | refl => exact ⟨⟨nofun, nofun⟩, fun start _ => Int.le_max_left _ _⟩
  | @snoc t evs key key' hr hs ih =>
      obtain ⟨x, rfl⟩ := hs.event
      rw [List.map_append, List.pairwise_append] at hclock
      obtain ⟨hsorted, -, hlast⟩ := hclock
      have hle : ∀ y ∈ t, y.now ≤ x.now := fun y hy => hlast _ (List.mem_map_of_mem hy) _ List.mem_cons_self
      rw [List.forall_mem_append] at herr
      obtain ⟨hrecent, hbound⟩ := ih herr.1 hsorted
      obtain ⟨rfl, hcard⟩ := hs.answered (herr.2 x List.mem_cons_self)
      refine ⟨hrecent.call hle rfl, fun start hdistinct => ?_⟩
      by_cases hin : x.allowed = true ∧ start ≤ x.now ∧ x.now < start + minute
      · have hset := hrecent.admitted_le hle rfl hin.2 hdistinct
        have hmax := hcard hin.1
        omega
      · rw [admitted_snoc_of_refused hin] at hdistinct ⊢
        exact hbound start hdistinct

/-! ## The limit -/

/-- The reading of a call in the minute from `start` on is not that of a call that was let through before it. -/
def Fresh (start : Int) (before : List Call) (x : Call) : Prop :=
  start ≤ x.now → x.now < start + minute → ∀ y ∈ before, y.allowed = true → y.now ≠ x.now

theorem admitted_nodup {start : Int} (h : Each (Fresh start) t) : ((admitted start t).map Call.now).Nodup := by
  induction t using List.reverseRecOn with
  | nil => exact .nil
  | append_singleton t x ih =>
      have hbefore := ih fun t₁ y t₂ heq => h t₁ y (t₂ ++ [x]) (by rw [heq]; simp)
      by_cases hin : x.allowed = true ∧ start ≤ x.now ∧ x.now < start + minute
      · have hfresh := h t x [] rfl hin.2.1 hin.2.2
        have hsnoc : admitted start (t ++ [x]) = admitted start t ++ [x] := by
          simp [admitted, hin]
        rw [hsnoc, List.map_append, List.nodup_append]
        refine ⟨hbefore, List.nodup_singleton _, ?_⟩
        rintro n hn m hm rfl
        obtain ⟨y, hy, rfl⟩ := List.mem_map.mp hn
        obtain ⟨hy, hallowed⟩ := List.mem_filter.mp hy
        simp only [Bool.and_eq_true] at hallowed
        exact hfresh y hy hallowed.1.1 (List.mem_singleton.mp hm)
      · rw [admitted_snoc_of_refused hin]
        exact hbefore

/-- In a minute in which no call has the reading of one that was let through before it, no more than `maxPerMin` calls
are let through. -/
theorem admitted_in_window {maxPerMin : Int} (hmax : 1 ≤ maxPerMin)
    (hr : Run (Step (newRateLimiter maxPerMin)) none t key) (herr : ∀ x ∈ t, x.err = none)
    (hclock : (t.map Call.now).Pairwise (· ≤ ·)) (start : Int) (hfresh : Each (Fresh start) t) :
    (admitted start t).length ≤ maxPerMin := by
  have hbound := (Recent.run hr herr hclock).2 start (admitted_nodup hfresh)
  have hlimit : (newRateLimiter maxPerMin).maxPerMin = maxPerMin := if_neg (by omega)
  omega

/-- Three calls, the last two in one millisecond: the limit of one refuses both of them. -/
theorem admitted_in_window_second : ∃ (t : List Call) (key : Option Key), Run (Step (newRateLimiter 1)) none t key ∧
    t = [⟨0, true, none⟩, ⟨1, false, none⟩, ⟨1, false, none⟩] ∧ ((admitted 0 t).length : Int) ≤ 1 := by
  have h₁ : Run (Step (newRateLimiter 1)) none _ _ := .single (.R_Allow 0 .ok rfl)
  have h₂ := (h₁.snoc (.R_Allow 1 .ok rfl)).snoc (.R_Allow 1 .ok rfl)
  have hfresh : Each (Fresh 0) ([⟨0, true, none⟩] ++ [⟨1, false, none⟩] ++ [⟨1, false, none⟩]) :=
    ((Each.nil.snoc (by simp [Fresh])).snoc (by simp [Fresh])).snoc (by simp [Fresh])
  exact ⟨_, _, h₂, rfl, admitted_in_window (by decide) h₂ (by decide) (by decide) 0 hfresh⟩

/-- Two calls in one millisecond: the second adds nothing to the set, so that it is let through as well. -/
theorem admitted_twice_in_a_millisecond : ∃ (t : List Call) (key : Option Key),
    Run (Step (newRateLimiter 1)) none t key ∧ (∀ x ∈ t, x.err = none) ∧ (t.map Call.now).Pairwise (· ≤ ·) ∧
      t = [⟨0, true, none⟩, ⟨0, true, none⟩] ∧ ¬ ((admitted 0 t).length : Int) ≤ 1 := by
  have h₁ : Run (Step (newRateLimiter 1)) none _ _ := .single (.R_Allow 0 .ok rfl)
  have h₂ := h₁.snoc (.R_Allow 0 .ok rfl)
  exact ⟨_, _, h₂, by decide, by decide, rfl, by decide⟩

end Gopkg.Telegram.Ratelimit
