import Gopkg.Pacing.Deadlines
import Gopkg.Voice.Whatsapp.Transport

/-!
# The pacer of the WhatsApp transport

`paceSender` of `voice/transport/whatsapp/transport.go`, with its clock. Times are in nanoseconds. Time passes between
any two steps, and a timer fires at its time or later. Everything else that happens to the transport is a step of the
transport without the clock.
-/

namespace Gopkg.Voice.Whatsapp

open Lts Pacing

/-- `outFrameMs * time.Millisecond` -/
def frameDur : Int := 20000000

/-- How far the pacer may fall behind before it gives the lost time up. -/
def resyncAfter : Int := 1000000000

inductive PacerPc where
  -- The check of `done` at the head of the loop.
  | top
  -- In the `select` with the timer.
  | waiting
  -- Before the second reading of the clock, which the deadline is set to.
  | resyncing
  -- Before the frame is taken and written.
  | due
  | exited
  deriving DecidableEq, Repr

structure Pacer where
  transport : Transport
  now : Int
  next : Int
  pc : PacerPc
  deriving DecidableEq, Repr

/-- `next := time.Now()` -/
def Pacer.start (now : Int) : Pacer := { transport := .new, now := now, next := now, pc := .top }

/-- An event of the transport with its time, and with the deadline that the pacer has then. -/
structure Timed where
  event : Event
  now : Int
  deadline : Int
  deriving DecidableEq, Repr

def Pacer.stamp (p : Pacer) (evs : List Event) : List Timed := evs.map fun ev => ⟨ev, p.now, p.next⟩

/-- A step of the transport that is not the pacer's. -/
def Outside (s : Transport) (evs : List Event) (s' : Transport) : Prop :=
  (∀ frame, .paced frame ∉ evs) ∧ s'.pacing = s.pacing

inductive PacerStep (encode : List Int16 → Except String (List UInt8)) : Pacer → List Timed → Pacer → Prop
  | P_Time {p : Pacer} {d : Int} : 0 ≤ d → PacerStep encode p [] { p with now := p.now + d }
  | P_Outside {p : Pacer} {evs : List Event} {s : Transport} : Step encode p.transport evs s →
      Outside p.transport evs s → PacerStep encode p (p.stamp evs) { p with transport := s }
  | P_Wait {p : Pacer} : p.pc = .top → p.now < p.next + frameDur →
      PacerStep encode p [] { p with next := p.next + frameDur, pc := .waiting }
  | P_Late {p : Pacer} : p.pc = .top → p.next + frameDur ≤ p.now → p.now ≤ p.next + frameDur + resyncAfter →
      PacerStep encode p [] { p with next := p.next + frameDur, pc := .due }
  | P_Resync {p : Pacer} : p.pc = .top → p.next + frameDur + resyncAfter < p.now →
      PacerStep encode p [] { p with next := p.next + frameDur, pc := .resyncing }
  | P_Resynced {p : Pacer} : p.pc = .resyncing → PacerStep encode p [] { p with next := p.now, pc := .due }
  | P_Fire {p : Pacer} : p.pc = .waiting → p.next ≤ p.now → PacerStep encode p [] { p with pc := .due }
  -- a frame of the queue, or silence when the queue is empty
  | P_Write {p : Pacer} {frame : Option OpusFrame} {s : Transport} : p.pc = .due →
      Step encode p.transport [.paced frame] s →
      PacerStep encode p (p.stamp [.paced frame]) { p with transport := s, pc := .top }
  | P_Exit {p : Pacer} : p.pc = .top ∨ p.pc = .waiting → p.transport.closed = true →
      PacerStep encode p [] { p with transport := { p.transport with pacing := false }, pc := .exited }

def Timed.tick? (ev : Timed) : Option Tick :=
  match ev.event with
  | .paced _ => some ⟨ev.deadline, ev.now⟩
  | _ => none

/-- What the pacer has written, with the deadlines. -/
def ticks (t : List Timed) : List Tick := t.filterMap Timed.tick?

end Gopkg.Voice.Whatsapp
