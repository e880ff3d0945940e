/-
  Gherkin/Command/Plan.lean
  =========================
  **Plans and their delivery.**

  What a command does is a list of effects, reports and pieces of output, and a
  verdict.  Delivering a plan hands the output to a stream.  A stream may have
  room for a limited number of bytes: the piece that does not fit is cut off
  there, and nothing behind it happens.
-/
import Gherkin.Command.Event

namespace Gherkin.Command

open Text

/-- How a command that ran to its end turned out. -/
inductive Verdict where
  | success
  /-- Some file could not be parsed, and the output says so. -/
  | failed
deriving DecidableEq, Repr

inductive Effect where
  | report (event : Event)
  /-- A piece of output, and the complaint when it cannot be written. -/
  | write (piece complaint : Text)
deriving DecidableEq, Repr

structure Plan where
  effects : List Effect
  verdict : Except Fault Verdict

structure Delivery where
  events : List Event
  /-- The output that was written. -/
  output : Text
  /-- The complaint of the first piece that could not be written. -/
  complaint : Option Text
deriving DecidableEq, Repr

def byteSize (t : Text) : Nat := t.foldr (fun c size => c.utf8Size + size) 0

/-- The part of a text that fits into a number of bytes.  A character that is
    cut in two shows as the replacement character. -/
def clip (room : Nat) : Text → Text
  | [] => []
  | c :: t =>
    if c.utf8Size ≤ room then c :: clip (room - c.utf8Size) t
    else if room = 0 then [] else ['\ufffd']

def fits (room : Option Nat) (piece : Text) : Bool := room.all (byteSize piece ≤ ·)

/-- Carry out effects in order; `room` is `none` for a stream without limit. -/
def deliver (room : Option Nat) : List Effect → Delivery
  | [] => ⟨[], [], none⟩
  | .report event :: rest =>
    let later := deliver room rest
    { later with events := event :: later.events }
  | .write piece complaint :: rest =>
    if fits room piece then
      let later := deliver (room.map (· - byteSize piece)) rest
      { later with output := piece ++ later.output }
    else ⟨[], clip (room.getD 0) piece, some complaint⟩

def Plan.outcome (plan : Plan) (delivery : Delivery) : Except Fault Verdict :=
  match delivery.complaint with
  | some complaint => .error (.write complaint)
  | none => plan.verdict

end Gherkin.Command
