import Mathlib.Tactic.Ring
import Gopkg.Lts.Simulation
import Gopkg.Lts.Slots
import Gopkg.Voice.Whatsapp.Pacer

/-!
# Deadlines of the pacer

The deadlines are a frame apart or more. A deadline is either ahead of the clock when it is chosen, or less than a
second behind it.
-/

namespace Gopkg.Voice.Whatsapp

open Lts Pacing

variable {encode : List Int16 → Except String (List UInt8)} {p p' : Pacer} {t evs : List Timed} {l : List Tick}
  {t₀ a b : Int}

@[simp] theorem ticks_append (t t' : List Timed) : ticks (t ++ t') = ticks t ++ ticks t' :=
  List.filterMap_append

@[simp] theorem ticks_paced (frame : Option OpusFrame) : ticks (p.stamp [.paced frame]) = [⟨p.next, p.now⟩] := rfl

theorem ticks_outside {evs : List Event} (h : ∀ frame, .paced frame ∉ evs) : ticks (p.stamp evs) = [] := by
  refine List.filterMap_eq_nil_iff.mpr fun ev hev => ?_
  obtain ⟨ev', hev', rfl⟩ := List.mem_map.mp hev
  cases ev' with
  | paced frame => exact absurd hev' (h frame)
  | _ => rfl

/-! ## The transport without the clock -/

/-- The events of the transport. -/
def events (t : List Timed) : List Event := t.map Timed.event

theorem events_stamp (evs : List Event) : events (p.stamp evs) = evs := by
  rw [events, Pacer.stamp, List.map_map]
  exact List.map_id evs

theorem PacerStep.forget (h : PacerStep encode p evs p') :
    Run (Step encode) p.transport (events evs) p'.transport := by
  cases h with
  | P_Outside hs _ | P_Write _ hs =>
      rw [events_stamp]
      exact .single hs
  | P_Exit _ hclosed => exact .single (.T_PacerExits hclosed)
  | P_Time _ | P_Wait _ _ | P_Late _ _ _ | P_Resync _ _ | P_Resynced _ | P_Fire _ _ => exact .refl

theorem forget_run (hr : Run (PacerStep encode) p t p') :
    Run (Step encode) p.transport (events t) p'.transport :=
  hr.simulate (f := Pacer.transport) rfl (fun _ _ => List.map_append) fun _ _ _ => PacerStep.forget

/-! ## The deadlines -/

/-- How the deadline at this place lies to a frame that was written before. -/
def Pacer.After (p : Pacer) (x : Tick) : Prop :=
  match p.pc with
  | .top | .exited => x.deadline ≤ p.next
  | .waiting | .due => Pacing.Follows frameDur resyncAfter x ⟨p.next, p.next⟩
  | .resyncing => x.deadline + frameDur ≤ p.next

structure Timing (l : List Tick) (p : Pacer) : Prop where
  paced : Paced frameDur resyncAfter l
  past : ∀ x ∈ l, x.written ≤ p.now
  after : ∀ x ∈ l, p.After x
  due : p.pc = .due ∨ p.pc = .resyncing → p.next ≤ p.now

theorem Timing.start : Timing [⟨t₀, t₀⟩] (Pacer.start t₀) where
  paced := Paced.nil.snoc nofun (Int.le_refl _)
  past := by simp [Pacer.start]
  after := by simp [Pacer.After, Pacer.start]
  due h := by simp [Pacer.start] at h

/-- A step of the loop that writes nothing. -/
theorem Timing.quiet (h : Timing l p) (hevs : ticks evs = []) (hnow : p.now ≤ p'.now) (hafter : ∀ x ∈ l, p'.After x)
    (hdue : p'.pc = .due ∨ p'.pc = .resyncing → p'.next ≤ p'.now) : Timing (l ++ ticks evs) p' := by
  rw [hevs, List.append_nil]
  exact ⟨h.paced, fun x hx => (h.past x hx).trans hnow, hafter, hdue⟩

theorem Timing.step (h : Timing l p) (hs : PacerStep encode p evs p') : Timing (l ++ ticks evs) p' := by
  cases hs with
  | P_Outside _ hout =>
      exact h.quiet (ticks_outside hout.1) (Int.le_refl _) h.after h.due
  | P_Write hpc _ =>
      -- the frame is written for the deadline of this place
      have hafter := h.after
      simp only [Pacer.After, hpc] at hafter
      rw [ticks_paced]
      refine ⟨h.paced.snoc (fun x hx => ⟨(hafter x hx).spaced, (hafter x hx).recent⟩) (h.due (.inl hpc)), ?_, ?_, nofun⟩
      · exact List.forall_mem_append.mpr ⟨h.past, by simp⟩
      · refine List.forall_mem_append.mpr ⟨fun x hx => ?_, by simp [Pacer.After]⟩
        have hspaced := (hafter x hx).spaced
        simp only [frameDur, Pacer.After] at hspaced ⊢
        linarith
  | P_Time hd =>
      exact h.quiet rfl (Int.le_add_of_nonneg_right hd) h.after fun hpc =>
        (h.due hpc).trans (Int.le_add_of_nonneg_right hd)
  | P_Wait hpc hahead =>
      refine h.quiet rfl (Int.le_refl _) (fun x hx => ?_) (by simp)
      have hpast := h.past x hx
      have hafter := h.after x hx
      simp only [Pacer.After, hpc] at hafter
      refine ⟨by simpa [frameDur] using hafter, ?_⟩
      simp only [frameDur, resyncAfter] at hahead ⊢
      linarith
  | P_Late hpc hdue hlate =>
      refine h.quiet rfl (Int.le_refl _) (fun x hx => ?_) fun _ => hdue
      have hpast := h.past x hx
      have hafter := h.after x hx
      simp only [Pacer.After, hpc] at hafter
      refine ⟨by simpa [frameDur] using hafter, ?_⟩
      linarith
  | P_Resync hpc hlate =>
      refine h.quiet rfl (Int.le_refl _) (fun x hx => ?_) fun _ => ?_
      · have hafter := h.after x hx
        simp only [Pacer.After, hpc] at hafter ⊢
        simpa [frameDur] using hafter
      · simp only [resyncAfter] at hlate ⊢
        linarith
  | P_Resynced hpc =>
      refine h.quiet rfl (Int.le_refl _) (fun x hx => ?_) fun _ => Int.le_refl _
      have hpast := h.past x hx
      have hafter := h.after x hx
      have hdue := h.due (.inr hpc)
      simp only [Pacer.After, hpc] at hafter
      refine ⟨hafter.trans hdue, ?_⟩
      simp only [resyncAfter]
      linarith
  | P_Fire hpc hdue =>
      refine h.quiet rfl (Int.le_refl _) (fun x hx => ?_) fun _ => hdue
      have hafter := h.after x hx
      simpa only [Pacer.After, hpc] using hafter
  | P_Exit hpc _ =>
      refine h.quiet rfl (Int.le_refl _) (fun x hx => ?_) (by simp)
      have hafter := h.after x hx
      rcases hpc with hpc | hpc
      · simpa only [Pacer.After, hpc] using hafter
      · simp only [Pacer.After, hpc] at hafter ⊢
        have hspaced := hafter.spaced
        simp only [frameDur] at hspaced
        linarith

theorem Timing.run (hr : Run (PacerStep encode) (Pacer.start t₀) t p) : Timing (⟨t₀, t₀⟩ :: ticks t) p :=
  hr.invariant (I := fun t p => Timing (⟨t₀, t₀⟩ :: ticks t) p) Timing.start fun t _ evs _ h hs => by
    rw [ticks_append, ← List.cons_append]
    exact h.step hs

/-! ## Without a resync -/

/-- The pacer never gives lost time up. -/
def InTime (_ : Pacer) (_ : List Timed) (p' : Pacer) : Prop := p'.pc ≠ .resyncing

/-- The deadlines are the multiples of a frame, and the next one is at this place. -/
structure Steady (t₀ : Int) (l : List Tick) (p : Pacer) : Prop where
  deadline : ∀ (k : Nat) (x : Tick), l[k]? = some x → x.deadline = t₀ + frameDur * (k + 1)
  top : p.pc = .top → p.next = t₀ + frameDur * l.length
  due : p.pc = .waiting ∨ p.pc = .due → p.next = t₀ + frameDur * (l.length + 1)
  inTime : p.pc ≠ .resyncing

theorem Steady.quiet (h : Steady t₀ l p) (hevs : ticks evs = []) (hin : p'.pc ≠ .resyncing)
    (htop : p'.pc = .top → p'.next = t₀ + frameDur * l.length)
    (hdue : p'.pc = .waiting ∨ p'.pc = .due → p'.next = t₀ + frameDur * (l.length + 1)) :
    Steady t₀ (l ++ ticks evs) p' := by
  rw [hevs, List.append_nil]
  exact ⟨h.deadline, htop, hdue, hin⟩

theorem Steady.step (h : Steady t₀ l p) (hs : PacerStep encode p evs p') (hin : p'.pc ≠ .resyncing) :
    Steady t₀ (l ++ ticks evs) p' := by
  cases hs with
  | P_Outside _ hout => exact h.quiet (ticks_outside hout.1) hin h.top h.due
  | P_Time _ => exact h.quiet rfl hin h.top h.due
  | P_Wait hpc _ | P_Late hpc _ _ =>
      refine h.quiet rfl hin nofun fun _ => ?_
      simp only [h.top hpc]
      ring
  | P_Resync _ _ => exact absurd rfl hin
  | P_Resynced hpc => exact absurd hpc h.inTime
  | P_Fire hpc _ => exact h.quiet rfl hin nofun fun _ => h.due (.inl hpc)
  | P_Exit _ _ => exact h.quiet rfl hin nofun (by simp)
  | P_Write hpc _ =>
      have hnext := h.due (.inr hpc)
      rw [ticks_paced]
      refine ⟨fun k x hx => ?_, fun _ => ?_, by simp, hin⟩
      · rcases getElem?_snoc_cases hx with ⟨rfl, rfl⟩ | hx
        · exact hnext
        · exact h.deadline k x hx
      · simp only [List.length_append, List.length_singleton, Nat.cast_add, Nat.cast_one]
        exact hnext

theorem Steady.run (hr : Run (Restrict (PacerStep encode) InTime) (Pacer.start t₀) t p) : Steady t₀ (ticks t) p := by
  refine hr.invariant (I := fun t p => Steady t₀ (ticks t) p) ⟨by simp [ticks], ?_, ?_, by simp [Pacer.start]⟩ ?_
  · simp [Pacer.start, ticks]
  · simp [Pacer.start]
  · intro t _ evs _ h hs
    rw [ticks_append]
    exact h.step hs.1 hs.2

end Gopkg.Voice.Whatsapp
