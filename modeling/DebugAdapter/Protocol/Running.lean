import DebugAdapter.Codec.Record

/-!
# Run control messages

Stops, resumption and threads.
-/

namespace DebugAdapter.Protocol

structure StoppedBody where
  reason : String
  description : Option String := none
  threadId : Option UInt32 := none
  hitBreakpointIds : Option (List UInt32) := none
  allThreadsStopped : Option Bool := none
deriving DecidableEq, Repr

def stoppedBody : Codec StoppedBody :=
  .record "StoppedEventBody"
    (.cons (.required "reason" .text) <|
     .cons (.optional "description" .text) <|
     .cons (.optional "threadId" .word) <|
     .cons (.optional "hitBreakpointIds" (.list .word)) <|
     .cons (.optional "allThreadsStopped" .bool) .nil)
    (fun (reason, description, threadId, hitBreakpointIds, allThreadsStopped, ()) =>
      ⟨reason, description, threadId, hitBreakpointIds, allThreadsStopped⟩)
    fun m => (m.reason, m.description, m.threadId, m.hitBreakpointIds, m.allThreadsStopped, ())

/-- The arguments of the requests that name a thread and nothing else. -/
structure ThreadArguments where
  threadId : UInt32 := 0
deriving DecidableEq, Repr

def threadArguments (name : String) : Codec ThreadArguments :=
  .record name
    (.cons (.defaulted "threadId" .word 0) .nil)
    (fun (threadId, ()) => ⟨threadId⟩)
    fun m => (m.threadId, ())

structure ContinueBody where
  allThreadsContinued : Option Bool := none
deriving DecidableEq, Repr

def continueBody : Codec ContinueBody :=
  .record "ContinueResponseBody"
    (.cons (.optional "allThreadsContinued" .bool) .nil)
    (fun (allThreadsContinued, ()) => ⟨allThreadsContinued⟩)
    fun m => (m.allThreadsContinued, ())

structure Thread where
  id : UInt32
  name : String
deriving DecidableEq, Repr

def thread : Codec Thread :=
  .record "Thread"
    (.cons (.required "id" .word) <|
     .cons (.required "name" .text) .nil)
    (fun (id, name, ()) => ⟨id, name⟩)
    fun m => (m.id, m.name, ())

structure ThreadsBody where
  threads : List Thread
deriving DecidableEq, Repr

def threadsBody : Codec ThreadsBody :=
  .record "ThreadsResponseBody"
    (.cons (.required "threads" (.list thread)) .nil)
    (fun (threads, ()) => ⟨threads⟩)
    fun m => (m.threads, ())

end DebugAdapter.Protocol
