import Gopkg.Lts.Alone

/-!
# The status in the log

`Chain`, `Recover` and `Logger` of `httpx/middleware`. A handler is a program that calls the response writer, and it
returns or panics. The header fields of a response are left out.
-/

namespace Gopkg.Httpx.Server

open Lts

/-- `requestID` is the one in the context. -/
structure Request where
  method : String
  path : String
  requestID : String
  remoteAddr : String

structure LogEntry where
  method : String
  path : String
  status : Int
  duration : Int
  bytesOut : Int
  requestID : String
  remoteAddr : String

/-- The calls to the writer, the clock, and the callbacks of the middlewares. -/
inductive Op where
  | writeHeader (code : Int)
  | write (b : List UInt8)
  | now
  | log (entry : LogEntry)
  | logPanic (err : String)

/-- `Write` returns how many bytes it accepted, and an error perhaps. -/
abbrev Ans : Op → Type
  | .write _ => Nat × Option String
  | .now => Int
  | _ => Unit

inductive Outcome where
  | returned
  | panicked (err : String)

abbrev Handler := Request → Program Op Ans Outcome

abbrev Middleware := Handler → Handler

abbrev Trace := List ((op : Op) × Ans op)

def chain (mws : List Middleware) : Middleware := fun next => mws.foldr (fun mw h => mw h) next

/-! ## `Recover` -/

def bytes (s : String) : List UInt8 := s.toUTF8.data.toList

/-- `http.Error` -/
def httpError (error : String) (code : Int) : Program Op Ans Outcome :=
  .call (.writeHeader code) fun _ => .call (.write (bytes (error ++ "\n"))) fun _ => .ret .returned

/-- `logFn` says whether there is a callback. -/
def recover (logFn : Bool) : Middleware := fun next r =>
  (next r).bind fun
    | .returned => .ret .returned
    | .panicked err =>
        let respond := httpError "internal server error" 500
        if logFn then .call (.logPanic err) fun _ => respond else respond

/-! ## `Logger` -/

structure StatusRecorder where
  status : Int
  bytes : Int

/-- The methods `WriteHeader` and `Write`, after the writer behind has answered. -/
def StatusRecorder.saw (rec : StatusRecorder) : (op : Op) → Ans op → StatusRecorder
  | .writeHeader code, _ => { rec with status := code }
  | .write _, (n, _) => { rec with bytes := rec.bytes + n }
  | _, _ => rec

/-- A handler that is given the recorder for its writer. -/
def record {α : Type} (rec : StatusRecorder) : Program Op Ans α → Program Op Ans (α × StatusRecorder)
  | .ret a => .ret (a, rec)
  | .call op next => .call op fun x => record (rec.saw op x) (next x)

def entry (r : Request) (rec : StatusRecorder) (start stop : Int) : LogEntry where
  method := r.method
  path := r.path
  status := rec.status
  duration := stop - start
  bytesOut := rec.bytes
  requestID := r.requestID
  remoteAddr := r.remoteAddr

/-- A panic goes past the call of the callback. -/
def logger : Middleware := fun next r =>
  .call .now fun start => (record ⟨200, 0⟩ (next r)).bind fun
    | (.panicked err, _) => .ret (.panicked err)
    | (.returned, rec) =>
        .call .now fun stop => .call (.log (entry r rec start stop)) fun _ => .ret .returned

/-! ## The writer -/

/-- The status that was sent, the number of bytes of the body that were accepted, and the entries of the log. -/
structure World where
  sent : Option Int
  accepted : Nat
  logged : List LogEntry

def World.init : World := ⟨none, 0, []⟩

/-- A status is final, unless it only informs. A later one is ignored. -/
def World.header (w : World) (code : Int) : World :=
  if w.sent.isSome ∨ 100 ≤ code ∧ code ≤ 199 ∧ code ≠ 101 then w else { w with sent := some code }

/-- The status of the response: where the handler sends none it is 200. -/
def World.status (w : World) : Int := w.sent.getD 200

inductive Act : World → (op : Op) → Ans op → World → Prop
  | writeHeader {w : World} {code : Int} : Act w (.writeHeader code) () (w.header code)
  | write {w : World} {b : List UInt8} {n : Nat} {err : Option String} : n ≤ b.length →
      Act w (.write b) (n, err) { w.header 200 with accepted := w.accepted + n }
  | now {w : World} {x : Int} : Act w .now x w
  | log {w : World} {entry : LogEntry} : Act w (.log entry) () { w with logged := w.logged ++ [entry] }
  | logPanic {w : World} {err : String} : Act w (.logPanic err) () w

/-! ## What is in a trace -/

/-- The code of a `WriteHeader`. -/
def headerCode? : (op : Op) × Ans op → Option Int
  | ⟨.writeHeader code, _⟩ => some code
  | _ => none

def headerCodes (t : Trace) : List Int := t.filterMap headerCode?

/-- The status that a call sends, if it is the first. -/
def sends? : (op : Op) × Ans op → Option Int
  | ⟨.writeHeader code, _⟩ => some code
  | ⟨.write _, _⟩ => some 200
  | _ => none

/-- The code of the first `WriteHeader`, or 200 if a `Write` comes before it or there is none. -/
def firstStatus (t : Trace) : Int := (t.filterMap sends?).head?.getD 200

def accepted : (op : Op) × Ans op → Nat
  | ⟨.write _, (n, _)⟩ => n
  | _ => 0

def acceptedBytes : Trace → Nat
  | [] => 0
  | e :: t => accepted e + acceptedBytes t

variable {α : Type} {p : Program Op Ans α} {rec rec' : StatusRecorder} {w w' : World} {t : Trace} {a : α}

theorem headerCodes_cons (e : (op : Op) × Ans op) (t : Trace) :
    headerCodes (e :: t) = (headerCode? e).toList ++ headerCodes t := by
  rw [headerCodes, List.filterMap_cons]
  cases headerCode? e <;> rfl

theorem head?_sends_cons (e : (op : Op) × Ans op) (t : Trace) :
    ((e :: t).filterMap sends?).head? = (sends? e).or (t.filterMap sends?).head? := by
  rw [List.filterMap_cons]
  cases sends? e <;> rfl

/-- Without a `WriteHeader` the first status is 200. -/
theorem firstStatus_of_no_header (h : headerCodes t = []) : firstStatus t = 200 := by
  induction t with
  | nil => rfl
  | cons e t ih =>
      rw [headerCodes_cons, List.append_eq_nil_iff] at h
      rw [firstStatus, head?_sends_cons]
      obtain ⟨op, x⟩ := e
      cases op with
      | writeHeader code => cases h.1
      | write b => rfl
      | _ => exact ih h.2

/-! ## The recorder and the writer -/

theorem saw_eq (rec : StatusRecorder) (e : (op : Op) × Ans op) :
    rec.saw e.1 e.2 = ⟨(headerCode? e).getD rec.status, rec.bytes + accepted e⟩ := by
  obtain ⟨op, x⟩ := e
  cases op with
  | writeHeader code => exact congrArg (StatusRecorder.mk code) (Int.add_zero _).symm
  | write b => rfl
  | _ => exact congrArg (StatusRecorder.mk rec.status) (Int.add_zero _).symm

/-- The recorder keeps the last status, and adds up what was accepted. -/
theorem record_ends (he : Ends Act w (record rec p) t (a, rec') w') :
    rec' = ⟨(headerCodes t).getLastD rec.status, rec.bytes + acceptedBytes t⟩ := by
  induction p generalizing w t rec with
  | ret b =>
      obtain ⟨rfl, heq, _⟩ := ends_ret rfl he
      rw [show rec' = rec from congrArg Prod.snd heq]
      exact congrArg (StatusRecorder.mk rec.status) (Int.add_zero _).symm
  | call op next ih =>
      obtain ⟨x, w₁, t', rfl, _, hrest⟩ := ends_call op rfl he
      rw [ih x hrest, saw_eq rec ⟨op, x⟩, headerCodes_cons, acceptedBytes, Int.natCast_add, Int.add_assoc]
      cases headerCode? ⟨op, x⟩ with
      | none => rfl
      | some code =>
          rw [Option.toList_some, List.singleton_append, List.getLastD_cons]
          rfl

theorem header_eq {code : Int} (hcode : 200 ≤ code) (w : World) :
    w.header code = { w with sent := w.sent.or (some code) } := by
  obtain ⟨sent, accepted, logged⟩ := w
  cases sent with
  | none =>
      refine if_neg ?_
      rintro (hsent | hinforms)
      · cases hsent
      · omega
  | some c => exact if_pos (.inl rfl)

/-- One call to the writer. -/
theorem Act.world {op : Op} {x : Ans op} (h : Act w op x w')
    (hcode : ∀ code, headerCode? ⟨op, x⟩ = some code → 200 ≤ code) :
    w'.sent = w.sent.or (sends? ⟨op, x⟩) ∧ w'.accepted = w.accepted + accepted ⟨op, x⟩ := by
  cases h with
  | writeHeader =>
      rw [header_eq (hcode _ rfl)]
      exact ⟨rfl, rfl⟩
  | write hn =>
      rw [header_eq (by decide)]
      exact ⟨rfl, rfl⟩
  | _ => exact ⟨Option.or_none.symm, rfl⟩

/-- The writer keeps the first status, and adds up what it accepts. -/
theorem ends_world (he : Ends Act w p t a w') (hcodes : ∀ code ∈ headerCodes t, 200 ≤ code) :
    w'.sent = w.sent.or (t.filterMap sends?).head? ∧ w'.accepted = w.accepted + acceptedBytes t := by
  induction he with
  | ret => exact ⟨Option.or_none.symm, rfl⟩
  | @call w w₁ w₂ op next x t a hact _ ih =>
      rw [headerCodes_cons] at hcodes
      obtain ⟨hsent, hacc⟩ := hact.world fun code hcode => hcodes code (by simp [hcode])
      obtain ⟨hsent', hacc'⟩ := ih fun code hcode => hcodes code (List.mem_append_right _ hcode)
      rw [hsent', hsent, hacc', hacc, head?_sends_cons, Option.or_assoc, acceptedBytes, Nat.add_assoc]
      exact ⟨rfl, rfl⟩

/-- How `Logger` ends when the handler returns. -/
theorem logger_ends {h : Handler} {r : Request} (he : Ends Act w (logger h r) t .returned w') :
    ∃ start stop t' w₁ rec, t = ⟨.now, start⟩ :: (t' ++ [⟨.now, stop⟩, ⟨.log (entry r rec start stop), ()⟩]) ∧
      Ends Act w (record ⟨200, 0⟩ (h r)) t' (.returned, rec) w₁ ∧
      w' = { w₁ with logged := w₁.logged ++ [entry r rec start stop] } := by
  obtain ⟨start, _, _, rfl, hnow, hrest⟩ := ends_call Op.now rfl he
  cases hnow
  obtain ⟨t', _, ⟨outcome, rec⟩, w₁, rfl, hrec, htail⟩ := ends_bind hrest
  cases outcome with
  | panicked err =>
      obtain ⟨_, heq, _⟩ := ends_ret rfl htail
      cases heq
  | returned =>
      obtain ⟨stop, _, _, rfl, hnow, hlog⟩ := ends_call Op.now rfl htail
      cases hnow
      obtain ⟨_, _, _, rfl, hact, hret⟩ := ends_call _ rfl hlog
      cases hact
      obtain ⟨rfl, _, rfl⟩ := ends_ret rfl hret
      exact ⟨start, stop, t', w₁, rec, rfl, hrec, rfl⟩

/-- The status in the log is the one that was sent if and only if the last `WriteHeader`, where there is one, had the
code that was sent. The bytes are always right. -/
theorem logged_status_iff (h : Handler) (r : Request) (t : Trace) (w : World)
    (hrun : Ends Act .init (logger h r) t .returned w) (hcodes : ∀ code ∈ headerCodes t, 200 ≤ code) :
    w.status = firstStatus t ∧ ∃ e, w.logged.getLast? = some e ∧ e.bytesOut = w.accepted ∧
      (e.status = w.status ↔ ∀ code, (headerCodes t).getLast? = some code → code = firstStatus t) := by
  have hstatus : w.status = firstStatus t := congrArg (Option.getD · 200) (ends_world hrun hcodes).1
  obtain ⟨start, stop, t', w₁, rec, rfl, hrec, rfl⟩ := logger_ends hrun
  have hsame : headerCodes (⟨.now, start⟩ :: (t' ++ [⟨.now, stop⟩, ⟨.log (entry r rec start stop), ()⟩])) =
      headerCodes t' := List.filterMap_append.trans (List.append_nil _)
  rw [hsame] at hcodes ⊢
  have hrecorder := record_ends hrec
  refine ⟨hstatus, _, List.getLast?_concat, ?_, ?_⟩
  · rw [entry, hrecorder, (ends_world hrec hcodes).2]
    simp [World.init]
  · have hlast : (entry r rec start stop).status = (headerCodes t').getLast?.getD 200 := by
      rw [entry, hrecorder, List.getLastD_eq_getLast?]
    rw [hlast, hstatus]
    cases hcode : (headerCodes t').getLast? with
    | none =>
        rw [firstStatus_of_no_header (hsame.trans (List.getLast?_eq_none_iff.mp hcode))]
        exact iff_of_true rfl nofun
    | some code =>
        rw [Option.getD_some]
        exact ⟨fun heq _ hsome => Option.some.inj hsome ▸ heq, fun hall => hall code rfl⟩

theorem httpError_ends {error : String} {code : Int} {o : Outcome} (he : Ends Act w (httpError error code) t o w') :
    o = .returned ∧ headerCodes t = [code] := by
  obtain ⟨_, _, _, rfl, _, hwrite⟩ := ends_call (Op.writeHeader code) rfl he
  obtain ⟨_, _, _, rfl, _, hret⟩ := ends_call (Op.write (bytes (error ++ "\n"))) rfl hwrite
  obtain ⟨rfl, rfl, _⟩ := ends_ret rfl hret
  exact ⟨rfl, rfl⟩

/-- `Recover` ends like the handler, or after a panic with the status 500. -/
theorem recover_ends {h : Handler} {r : Request} {logFn : Bool} {o : Outcome}
    (he : Ends Act w (recover logFn h r) t o w') : o = .returned ∧
      (Ends Act w (h r) t .returned w' ∨ (headerCodes t).getLast? = some 500) := by
  obtain ⟨t₁, t₂, outcome, w₁, rfl, hh, htail⟩ := ends_bind he
  cases outcome with
  | returned =>
      obtain ⟨rfl, rfl, rfl⟩ := ends_ret rfl htail
      rw [List.append_nil]
      exact ⟨rfl, .inl hh⟩
  | panicked err =>
      have hlast : o = .returned ∧ headerCodes t₂ = [500] := by
        cases logFn with
        | false => exact httpError_ends htail
        | true =>
            obtain ⟨_, _, _, rfl, _, herror⟩ := ends_call (Op.logPanic err) rfl htail
            obtain ⟨hreturned, hcodes⟩ := httpError_ends herror
            exact ⟨hreturned, hcodes⟩
      refine ⟨hlast.1, .inr ?_⟩
      rw [headerCodes, List.filterMap_append, ← headerCodes, ← headerCodes, hlast.2, List.getLast?_concat]

def request : Request := ⟨"GET", "/", "", "192.0.2.1:1234"⟩

def notFound : Handler := fun _ =>
  .call (.writeHeader 404) fun _ => .call (.write (bytes "not found")) fun _ => .ret .returned

theorem logged_status_iff_not_found : ∃ t w, Ends Act .init (logger notFound request) t .returned w ∧
    ∃ e, w.logged.getLast? = some e ∧ e.status = w.status := by
  have hrun : Ends Act .init (logger notFound request)
      [⟨.now, 0⟩, ⟨.writeHeader 404, ()⟩, ⟨.write (bytes "not found"), (9, none)⟩, ⟨.now, 1⟩,
        ⟨.log (entry request ⟨404, 9⟩ 0 1), ()⟩] .returned ⟨some 404, 9, [entry request ⟨404, 9⟩ 0 1]⟩ :=
    .call .now (.call .writeHeader (.call (.write (by decide)) (.call .now (.call .log .ret))))
  obtain ⟨_, e, he, _, hiff⟩ := logged_status_iff notFound request _ _ hrun (by simp [headerCodes, headerCode?])
  exact ⟨_, _, hrun, e, he, hiff.mpr fun code hcode => (Option.some.inj hcode).symm⟩

def greetAndPanic : Handler := fun _ => .call (.write (bytes "hi")) fun _ => .ret (.panicked "boom")

/-- The client gets 200 with the greeting, and the log says 500. -/
theorem panic_after_output_logged : ∃ t w, Ends Act .init (chain [logger, recover false] greetAndPanic request) t
    .returned w ∧ w.status = 200 ∧ w.logged.map LogEntry.status = [500] := by
  have hrun : Ends Act .init (chain [logger, recover false] greetAndPanic request)
      [⟨.now, 0⟩, ⟨.write (bytes "hi"), (2, none)⟩, ⟨.writeHeader 500, ()⟩,
        ⟨.write (bytes ("internal server error" ++ "\n")), (22, none)⟩, ⟨.now, 1⟩,
        ⟨.log (entry request ⟨500, 24⟩ 0 1), ()⟩] .returned ⟨some 200, 24, [entry request ⟨500, 24⟩ 0 1]⟩ :=
    .call .now (.call (.write (by decide)) (.call .writeHeader (.call (.write (by decide))
      (.call .now (.call .log .ret)))))
  exact ⟨_, _, hrun, rfl, rfl⟩

end Gopkg.Httpx.Server
