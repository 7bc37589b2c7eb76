import XorcNotifications.Common.RequestConsumer
import XorcNotifications.Lib.Guards

/-!
# Handlers at the lock of the tenant table

An `EventHandler` does each of its functions at once.  In the source the tenant table stands in a
`RwLock`, and the request loop and the configuration loop run on threads of their own, so that a
function is a program: it acts on the world, and takes and drops guards where the scopes of the
source begin and end.  Nothing panics under a guard, so that the lock is never poisoned.

The three services with a tenant table insert and remove entries, and set the gauge of
applications, in the same way.
-/

namespace XorcNotifications

open Executors KeyedTables Guards

/-- What a call of a handler function does, guard by guard. -/
abbrev HandlerProgram (H : EventHandler) :=
  Program (Table String H.Entry) (Executor H.Event (World H.Call))

namespace HandlerProgram

variable {H : EventHandler}

def onWorld (effect : World H.Call → World H.Call) (x : Executor H.Event (World H.Call)) :
    Executor H.Event (World H.Call) :=
  { x with world := effect x.world }

/-- The last step of a call, which the executor takes under the number of the call. -/
def takes (step : Step H.Event (World H.Call)) : HandlerProgram H :=
  .done fun number x => Executor.step { x with clock := number } step

/-- The end of `handle_notification`, where the loop spawns the future it is given. -/
def returns (leaves : Leaves H.Event (World H.Call)) : HandlerProgram H := takes (.react ⟨id, leaves⟩)

/-- The end of `handle_config`. -/
def returnsUnit : HandlerProgram H := takes (.background id)

/-- `set_app_counter`.  The guard lives to the end of the statement. -/
def setAppCounter (rest : HandlerProgram H) : HandlerProgram H :=
  .lock .read <| .look fun table =>
    .act (onWorld (·.setNumberOfApplications table.size)) <| .unlock rest

/-- `insert` under a write guard.  The entry it replaces is dropped before the guard. -/
def insertEntry (drop : H.Entry → World H.Call → World H.Call) (id : String) (entry : H.Entry)
    (rest : HandlerProgram H) : HandlerProgram H :=
  .lock .write <| .look fun table => .store (table.insert id entry) <|
    match table.lookup id with
    | some replaced => .act (onWorld (drop replaced)) <| .unlock rest
    | none => .unlock rest

/-- `remove` in the condition of an `if`: the removed entry and the guard are dropped before its
    branch, which locks the table once more. -/
def removeEntry (drop : H.Entry → World H.Call → World H.Call) (level : LogLevel) (id : String) :
    HandlerProgram H :=
  .lock .write <| .look fun table =>
    match table.lookup id with
    | some removed =>
      .store (table.erase id) <| .act (onWorld (drop removed)) <| .unlock <| setAppCounter <|
        .act (onWorld (·.log level "Application removed" [("universe", .str id)])) returnsUnit
    | none => .unlock returnsUnit

end HandlerProgram

/-- The functions of a handler that use the table. -/
structure GuardedHandler (H : EventHandler) where
  handleNotification : Option Bytes → PushNotification → HandlerProgram H
  handleConfig : H.Clients → String → Option Application → HandlerProgram H

/-- Every other call is one step of the request loop, and does not use the table. -/
def GuardedHandler.program {H : EventHandler} (guarded : GuardedHandler H) : HandlerCall H → HandlerProgram H
  | .notification key event => guarded.handleNotification key event
  | .config clients id application => guarded.handleConfig clients id application
  | call => .takes (call.toStep ∅)

/-- The thread that makes the call. -/
def HandlerCall.role {H : EventHandler} : HandlerCall H → Role
  | .config .. => .writer
  | _ => .reader

end XorcNotifications
