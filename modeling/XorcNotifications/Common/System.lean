import Mathlib.Logic.Function.Basic
import XorcNotifications.Lib.Machine
import XorcNotifications.Common.RequestConsumer

/-!
# The threads of a service

`System::start` in `src/common/system.rs`, with `StatisticsServer::handle` of
`src/common/metrics.rs`: the main thread starts the request consumer, the configuration
consumer and the statistics server, waits for a signal, sends every thread its stop
through a channel of its own, and joins them.

An `Action` is one step of one of the four threads, and `State.step` is the machine of
all of them.  Nothing says in which order the threads take their steps.  The signal comes
to the main thread, which has asked for it with `notify`, or to a thread that was started
before that and does not block it; there it ends the process.
-/

namespace XorcNotifications

open Machines RequestConsumer

namespace System

inductive Thread where
  | request
  | config
  | server
deriving DecidableEq

/-- The two threads that run `RequestConsumer::handler`. -/
def Thread.isConsumer : Thread → Bool
  | .request | .config => true
  | .server => false

/-- `closing` is a thread whose loop is over: a consumer is about to commit, the server has
    closed its port and still answers on the connections it has. -/
inductive Phase where
  | running
  | closing
  | returned
  | panicked
deriving DecidableEq

structure ThreadState where
  phase : Phase
  -- The channel of the thread holds the stop.
  told : Bool
  -- `commit_consumer_state` has been called.
  committed : Bool
deriving DecidableEq

def ThreadState.start : ThreadState := ⟨.running, false, false⟩

/-- Where the main thread is: at `chan_select!`, before the send to a thread, before the
    join of a thread, or done.  One that unwinds drops the senders it still has, and the
    process goes on until it has unwound. -/
inductive Main where
  | waiting
  | sending (thread : Thread)
  | joining (thread : Thread)
  | returned
  | unwinding
  | unwound
  | killed
deriving DecidableEq

namespace Main

/-- The three sends, in their order. -/
def afterSend : Thread → Main
  | .server => .sending .request
  | .request => .sending .config
  | .config => .joining .request

/-- The joins, in the order in which the threads were pushed. -/
def afterJoin : Thread → Main
  | .request => .joining .config
  | .config => .joining .server
  | .server => .returned

/-- The process has ended. -/
def isOver : Main → Bool
  | .returned | .unwound | .killed => true
  | _ => false

/-- `System::start` has returned or unwinds, or has ended with its process. -/
def hasLeft (main : Main) : Bool := main = .unwinding || main.isOver

end Main

/-- What the threads do.  `finish` is a loop that ends without a stop: the stream of a
    consumer has ended, or the server has failed.  `panic` is everything that unwinds a
    running thread outside the handling of a message, such as a port that is taken.  `kill` is
    a signal that does not come to the main thread and ends the process. -/
inductive Action (H : EventHandler) where
  | signal
  | main
  | item (result : Except String BorrowedMessage)
  | poll (task : Nat) (event : Option H.Event)
  | configure (clients : H.Clients) (msg : BorrowedMessage)
  | panic (thread : Thread)
  | finish (thread : Thread)
  | stop (thread : Thread)
  | commit (thread : Thread) (ok : Bool)
  | disconnect
  | kill

structure State (H : EventHandler) where
  main : Main
  threads : Thread → ThreadState
  -- What the two consumers share, and what the request consumer has of its own.
  consumer : RequestConsumer.State H
  joined : List Thread

namespace State

variable {H : EventHandler}

variable (H) in
/-- The threads are spawned, and the main thread waits for a signal. -/
def start : State H := ⟨.waiting, fun _ => .start, .start H, []⟩

def set (s : State H) (thread : Thread) (next : ThreadState) : State H :=
  { s with threads := Function.update s.threads thread next }

/-- The stop is put into the channel of the thread. -/
def tell (s : State H) (thread : Thread) : State H :=
  s.set thread { s.threads thread with told := true }

def setPhase (s : State H) (thread : Thread) (phase : Phase) : State H :=
  s.set thread { s.threads thread with phase := phase }

/-- The thread still has the receiver of its channel.  `select2` hands it on to the closure
    of `then`, which keeps it during the commit in a consumer and drops it in the server. -/
def listens (s : State H) (thread : Thread) : Bool :=
  match (s.threads thread).phase with
  | .running => true
  | .closing => thread.isConsumer
  | .returned | .panicked => false

/-- A step of the main thread after the signal. -/
def proceed (s : State H) : Option (State H) :=
  match s.main with
  | .sending thread =>
    -- `send(()).unwrap()`: without a receiver the send fails.
    if s.listens thread then some { s.tell thread with main := .afterSend thread }
    else some { s with main := .unwinding }
  | .joining thread =>
    match (s.threads thread).phase with
    | .returned => some { s with joined := s.joined ++ [thread], main := .afterJoin thread }
    -- `join().unwrap()`: the join of a thread that panicked fails.
    | .panicked => some { s with joined := s.joined ++ [thread], main := .unwinding }
    | .running | .closing => none
  | .unwinding => some { s with main := .unwound }
  | .waiting | .returned | .unwound | .killed => none

variable (pb : Protobuf)

/-- A step of the loop in `handle_requests`. -/
def request (s : State H) (input : Input H) : Option (State H) :=
  if (s.threads .request).phase = .running then
    let next := { s with consumer := s.consumer.step pb input }
    some (if next.consumer.session.executor.halted then next.setPhase .request .panicked else next)
  else none

/-- A step of the loop in `handle_configs`. -/
def configure (s : State H) (clients : H.Clients) (msg : BorrowedMessage) : Option (State H) :=
  if (s.threads .config).phase = .running then
    match configCall pb msg with
    | .ok (some (id, application)) =>
      some { s with consumer := s.consumer.step pb (.config clients id application) }
    | .ok none => some s
    | .error _ => some (s.setPhase .config .panicked)
  else none

/-- A step of a thread out of the phase it has to be in. -/
def move (s : State H) (thread : Thread) (phase next : Phase) : Option (State H) :=
  if (s.threads thread).phase = phase then some (s.setPhase thread next) else none

/-- The channel of the thread has the stop, or its sender is dropped: either ends `select2`. -/
def stops (s : State H) (thread : Thread) : Bool := (s.threads thread).told || s.main = .unwinding

/-- `commit_consumer_state`, whose error `block_on(..).unwrap()` turns into a panic. -/
def commit (s : State H) (thread : Thread) (ok : Bool) : Option (State H) :=
  if thread.isConsumer ∧ (s.threads thread).phase = .closing then
    some (s.set thread { s.threads thread with
      phase := if ok then .returned else .panicked, committed := true })
  else none

/-- One step of one thread.  The process ends with its main thread. -/
def step : Machine (State H) (Action H) := fun s action =>
  if s.main.isOver then none
  else match action with
  | .signal => if s.main = .waiting then some { s with main := .sending .server } else none
  | .main => s.proceed
  | .item result => s.request pb (.item result)
  | .poll task event => s.request pb (.poll task event)
  | .configure clients msg => s.configure pb clients msg
  | .panic thread => s.move thread .running .panicked
  | .finish thread => s.move thread .running .closing
  | .stop thread => if s.stops thread then s.move thread .running .closing else none
  | .commit thread ok => s.commit thread ok
  -- The last connection is closed, and `rt::run` returns.
  | .disconnect => s.move .server .closing .returned
  | .kill => some { s with main := .killed }

/-- The state after a list of actions, if the threads can take them in that order. -/
def run (actions : List (Action H)) : Option (State H) := (step pb).run (start H) actions

end State

end System

end XorcNotifications
