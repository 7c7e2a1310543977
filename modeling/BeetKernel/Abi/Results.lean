/-
# Results as words

`Result::to_args` is what the kernel loads into the registers of a thread whose call ends, and
`Result::from_args` is what the process makes of them.  The two tables agree on all results but
two: `Unimplemented` is written with the number of `Message`, and the words of an
`UnknownResult` come back shifted by one.  Both are results the modelled kernel never returns
(`fromArgs_arg`), so what a process observes of the kernel's own results is exact.
-/
import BeetKernel.Abi.Words

namespace BeetKernel.Abi

open NonZeroUsize (getOrZero new_getOrZero)

inductive Result where
  | ok
  | error (e : Error)
  | memoryAddress (addr : MemoryAddress)
  | memoryRange (r : MemoryRange)
  | readyThreads (count pid0 ctx0 pid1 ctx1 pid2 ctx2 : Nat)
  | resumeProcess
  | serverID (sid : SID)
  | connectionID (cid : UInt32)
  | newServerID (sid : SID)
  | messageEnvelope (me : MessageEnvelope)
  | threadID (tid : TID)
  | processID (pid : PID)
  | unimplemented
  | blockedProcess
  | scalar1 (a : Nat)
  | scalar2 (a b : Nat)
  | retryCall
  | none
  | memoryReturned (offset valid : Option MemorySize)
  /-- `NewProcess`, with the process id that `ProcessStartup` holds. -/
  | newProcess (pid : PID)
  | scalar5 (a b c d e : Nat)
  | message (m : Message)
  | unknownResult (arg1 arg2 arg3 arg4 arg5 arg6 arg7 : Nat)
deriving DecidableEq

/-! ## 1. Errors and messages -/

/-- `Error::from_usize` -/
def errorFromUsize : Nat → Error
  | 0 => .noError
  | 1 => .badAlignment
  | 2 => .badAddress
  | 3 => .outOfMemory
  | 4 => .memoryInUse
  | 5 => .interruptNotFound
  | 6 => .interruptInUse
  | 7 => .invalidString
  | 8 => .serverExists
  | 9 => .serverNotFound
  | 10 => .processNotFound
  | 11 => .processNotChild
  | 12 => .processTerminated
  | 13 => .timeout
  | 14 => .internalError
  | 15 => .serverQueueFull
  | 16 => .threadNotAvailable
  | 17 => .unhandledSyscall
  | 18 => .invalidSyscall
  | 19 => .shareViolation
  | 20 => .invalidThread
  | 21 => .invalidPID
  | 23 => .accessDenied
  | 24 => .again
  | 25 => .doubleFree
  | 26 => .debugInProgress
  | 27 => .invalidLimit
  | 28 => .parseError
  | 29 => .invalidPhysicalAddress
  | 30 => .invalidArguments
  | _ => .unknownError

@[simp] theorem errorFromUsize_toUsize (e : Error) : errorFromUsize e.toUsize = e := by
  cases e <;> rfl

/-- `[usize; 6]`: the kind of a message and its five words. -/
structure MessageWords where
  kind : Nat
  id : Nat
  a : Nat
  b : Nat
  c : Nat
  d : Nat

/-- `Message::to_usize` with `MemoryMessage::to_usize` and `ScalarMessage::to_usize`. -/
def messageToUsize : Message → MessageWords
  | .mutableBorrow m => memory 0 m
  | .borrow m => memory 1 m
  | .move m => memory 2 m
  | .scalar m => ⟨3, m.id, m.arg1, m.arg2, m.arg3, m.arg4⟩
  | .blockingScalar m => ⟨4, m.id, m.arg1, m.arg2, m.arg3, m.arg4⟩
where
  memory (kind : Nat) (m : MemoryMessage) : MessageWords :=
    ⟨kind, m.id, m.buf.addr.get, m.buf.size.get, getOrZero m.offset, getOrZero m.valid⟩

/-- `MemoryMessage::from_usize` -/
def memoryMessageFromUsize (id addr size offset valid : Nat) : Option MemoryMessage := do
  let addr ← NonZeroUsize.new addr
  let size ← NonZeroUsize.new size
  pure ⟨id, ⟨addr, size⟩, NonZeroUsize.new offset, NonZeroUsize.new valid⟩

@[simp] theorem memoryMessageFromUsize_words (m : MemoryMessage) :
    memoryMessageFromUsize m.id m.buf.addr.get m.buf.size.get (getOrZero m.offset) (getOrZero m.valid) = some m := by
  rw [memoryMessageFromUsize, nonZero_new_get, nonZero_new_get, new_getOrZero, new_getOrZero]
  rfl

/-- The table of message kinds that `from_args` has twice, for envelopes and for messages. -/
def messageFromUsize (w : MessageWords) : Option Message :=
  match w.kind with
  | 0 => (memoryMessageFromUsize w.id w.a w.b w.c w.d).map .mutableBorrow
  | 1 => (memoryMessageFromUsize w.id w.a w.b w.c w.d).map .borrow
  | 2 => (memoryMessageFromUsize w.id w.a w.b w.c w.d).map .move
  | 3 => some (.scalar ⟨w.id, w.a, w.b, w.c, w.d⟩)
  | 4 => some (.blockingScalar ⟨w.id, w.a, w.b, w.c, w.d⟩)
  | _ => none

@[simp] theorem messageFromUsize_toUsize (m : Message) : messageFromUsize (messageToUsize m) = some m := by
  cases m <;> simp [messageToUsize, messageToUsize.memory, messageFromUsize]

/-! ## 2. The two tables -/

namespace Result

def toArgs : Result → Words
  | ok => ⟨0, 0, 0, 0, 0, 0, 0, 0⟩
  | error e => ⟨1, e.toUsize, 0, 0, 0, 0, 0, 0⟩
  | memoryAddress s => ⟨2, s.get, 0, 0, 0, 0, 0, 0⟩
  | memoryRange r => ⟨3, r.addr.get, r.size.get, 0, 0, 0, 0, 0⟩
  | readyThreads count pid0 ctx0 pid1 ctx1 pid2 ctx2 =>
    ⟨4, count, pid0, ctx0, pid1, ctx1, pid2, ctx2⟩
  | resumeProcess => ⟨5, 0, 0, 0, 0, 0, 0, 0⟩
  | serverID s => ⟨6, s.a0.toNat, s.a1.toNat, s.a2.toNat, s.a3.toNat, 0, 0, 0⟩
  | connectionID cid => ⟨7, cid.toNat, 0, 0, 0, 0, 0, 0⟩
  | messageEnvelope me =>
    let enc := messageToUsize me.body
    ⟨9, me.sender.data, enc.kind, enc.id, enc.a, enc.b, enc.c, enc.d⟩
  | threadID ctx => ⟨10, ctx, 0, 0, 0, 0, 0, 0⟩
  | processID pid => ⟨11, pid.get, 0, 0, 0, 0, 0, 0⟩
  -- 12 in the list of results and in `from_args`
  | unimplemented => ⟨21, 0, 0, 0, 0, 0, 0, 0⟩
  | blockedProcess => ⟨13, 0, 0, 0, 0, 0, 0, 0⟩
  | scalar1 a => ⟨14, a, 0, 0, 0, 0, 0, 0⟩
  | scalar2 a b => ⟨15, a, b, 0, 0, 0, 0, 0⟩
  | newServerID s => ⟨8, s.a0.toNat, s.a1.toNat, s.a2.toNat, s.a3.toNat, 0, 0, 0⟩
  | retryCall => ⟨16, 0, 0, 0, 0, 0, 0, 0⟩
  | none => ⟨17, 0, 0, 0, 0, 0, 0, 0⟩
  | memoryReturned offset valid =>
    ⟨18, getOrZero offset, getOrZero valid, 0, 0, 0, 0, 0⟩
  | newProcess pid => ⟨19, pid.get, 0, 0, 0, 0, 0, 0⟩
  | scalar5 a b c d e => ⟨20, a, b, c, d, e, 0, 0⟩
  | message m =>
    let enc := messageToUsize m
    ⟨21, enc.kind, enc.id, enc.a, enc.b, enc.c, enc.d, 0⟩
  | unknownResult arg1 arg2 arg3 arg4 arg5 arg6 arg7 =>
    ⟨usizeMax, arg1, arg2, arg3, arg4, arg5, arg6, arg7⟩

/-- `Result::from_args`; it panics on a `ProcessID` of zero. -/
def fromArgs (w : Words) : Decode Result :=
  match w.a0 with
  | 0 => pure ok
  | 1 => pure (error (errorFromUsize w.a1))
  | 2 => pure (match NonZeroUsize.new w.a1 with
    | .none => error .internalError
    | some s => memoryAddress s)
  | 3 => pure (match NonZeroUsize.new w.a1, NonZeroUsize.new w.a2 with
    | some addr, some size => memoryRange ⟨addr, size⟩
    | _, _ => error .internalError)
  | 4 => pure (readyThreads w.a1 w.a2 w.a3 w.a4 w.a5 w.a6 w.a7)
  | 5 => pure resumeProcess
  | 6 => pure (serverID (sidFromU32 w.a1 w.a2 w.a3 w.a4))
  | 7 => pure (connectionID (UInt32.ofNat w.a1))
  | 8 => pure (newServerID (sidFromU32 w.a1 w.a2 w.a3 w.a4))
  | 9 => pure (match messageFromUsize ⟨w.a2, w.a3, w.a4, w.a5, w.a6, w.a7⟩ with
    | .none => error .internalError
    | some m => messageEnvelope ⟨⟨w.a1⟩, m⟩)
  | 10 => pure (threadID w.a1)
  | 11 => do
    let pid ← Exec.expect "called Option::unwrap on a None value" (pidNew w.a1)
    pure (processID pid)
  | 12 => pure unimplemented
  | 13 => pure blockedProcess
  | 14 => pure (scalar1 w.a1)
  | 15 => pure (scalar2 w.a1 w.a2)
  | 16 => pure retryCall
  | 17 => pure none
  | 18 => pure (memoryReturned (NonZeroUsize.new w.a1) (NonZeroUsize.new w.a2))
  -- a process id of zero becomes that of the kernel
  | 19 => pure (newProcess ((pidNew w.a1).getD PID.kernel))
  | 20 => pure (scalar5 w.a1 w.a2 w.a3 w.a4 w.a5)
  | 21 => pure (match messageFromUsize ⟨w.a1, w.a2, w.a3, w.a4, w.a5, w.a6⟩ with
    | .none => error .internalError
    | some m => message m)
  | _ => pure (unknownResult w.a0 w.a1 w.a2 w.a3 w.a4 w.a5 w.a6)

/-! ## 3. What is read back -/

/-- The results that the two tables agree on. -/
def Known : Result → Prop
  | unimplemented | unknownResult .. => False
  | _ => True

instance (r : Result) : Decidable r.Known := by
  cases r <;> simp only [Known] <;> infer_instance

theorem fromArgs_toArgs_of_known (r : Result) (h : r.Known) : fromArgs r.toArgs () = .ok r () := by
  cases r with
  | unimplemented | unknownResult => exact h.elim
  | messageEnvelope me =>
    have hm : messageFromUsize ⟨(messageToUsize me.body).kind, (messageToUsize me.body).id,
        (messageToUsize me.body).a, (messageToUsize me.body).b, (messageToUsize me.body).c,
        (messageToUsize me.body).d⟩ = some me.body := messageFromUsize_toUsize me.body
    simp only [fromArgs, toArgs, hm, Exec.pure_run]
  | message m =>
    have hm : messageFromUsize ⟨(messageToUsize m).kind, (messageToUsize m).id,
        (messageToUsize m).a, (messageToUsize m).b, (messageToUsize m).c,
        (messageToUsize m).d⟩ = some m := messageFromUsize_toUsize m
    simp only [fromArgs, toArgs, hm, Exec.pure_run]
  | _ =>
    simp only [fromArgs, toArgs, errorFromUsize_toUsize, nonZero_new_get,
      new_getOrZero, sidFromU32_toNat, UInt32.ofNat_toNat, pidNew_get, Exec.expect,
      Option.getD_some, Exec.pure_bind_run, Exec.pure_run]

/-- `Unimplemented` is read as a message whose buffer is at address zero, and so as an error. -/
theorem fromArgs_toArgs_unimplemented : fromArgs unimplemented.toArgs () = .ok (error .internalError) () := rfl

/-- The number takes the place of the first word, and the last word is lost. -/
theorem fromArgs_toArgs_unknownResult (arg1 arg2 arg3 arg4 arg5 arg6 arg7 : Nat) :
    fromArgs (unknownResult arg1 arg2 arg3 arg4 arg5 arg6 arg7).toArgs () =
      .ok (unknownResult usizeMax arg1 arg2 arg3 arg4 arg5 arg6) () := rfl

/-- The result is one of those both tables know, or the one unknown result whose words are all
`usize::MAX`, so that shifting them changes nothing. -/
def ReadBack (r : Result) : Prop :=
  r.Known ∨ r = unknownResult usizeMax usizeMax usizeMax usizeMax usizeMax usizeMax usizeMax

/-- **Which results a process observes exactly as the kernel returned them.** -/
theorem fromArgs_toArgs_iff (r : Result) : fromArgs r.toArgs () = .ok r () ↔ r.ReadBack := by
  by_cases hk : r.Known
  · exact ⟨fun _ => .inl hk, fun _ => fromArgs_toArgs_of_known r hk⟩
  cases r with
  | unimplemented =>
    constructor
    · intro h
      rw [fromArgs_toArgs_unimplemented] at h
      cases h
    · rintro (h | h)
      · exact h.elim
      · cases h
  | unknownResult arg1 arg2 arg3 arg4 arg5 arg6 arg7 =>
    rw [fromArgs_toArgs_unknownResult]
    constructor
    · intro h
      injection h with h
      injection h with h1 h2 h3 h4 h5 h6 h7
      subst h1 h2 h3 h4 h5 h6 h7
      exact .inr rfl
    · rintro (h | h)
      · exact h.elim
      · cases h
        rfl
  | _ => exact (hk trivial).elim

/-- A result that says the call does not exist is observed as an internal error. -/
theorem unimplemented_not_readBack : fromArgs unimplemented.toArgs () ≠ .ok unimplemented () := by
  rw [fromArgs_toArgs_unimplemented]
  intro h
  cases h

end Result

/-! ## 4. The results of the modelled kernel -/

/-- A result of the kernel's model among all results. -/
def ofKernel : BeetKernel.Result → Result
  | .ok => .ok
  | .error e => .error e
  | .memoryRange r => .memoryRange r
  | .resumeProcess => .resumeProcess
  | .serverID sid => .serverID sid
  | .connectionID cid => .connectionID (UInt32.ofNat cid)
  | .messageEnvelope me => .messageEnvelope me
  | .threadID tid => .threadID tid
  | .processID pid => .processID pid
  | .scalar1 a => .scalar1 a
  | .scalar2 a b => .scalar2 a b
  | .newServerID sid => .newServerID sid
  | .retryCall => .retryCall
  | .none => .none
  | .memoryReturned offset valid => .memoryReturned offset valid
  | .newProcess pid => .newProcess pid
  | .scalar5 a b c d e => .scalar5 a b c d e

/-- A connection number fits its type. -/
def CidFits : BeetKernel.Result → Prop
  | .connectionID cid => cid < 2 ^ 32
  | _ => True

/-- The registers the kernel's model writes are the words of `to_args`. -/
theorem toArgs_ofKernel (r : BeetKernel.Result) (h : CidFits r) :
    (ofKernel r).toArgs = ⟨r.arg 0, r.arg 1, r.arg 2, r.arg 3, r.arg 4, r.arg 5, r.arg 6, r.arg 7⟩ := by
  cases r with
  | connectionID cid =>
    have hcid : (UInt32.ofNat cid).toNat = cid := UInt32.toNat_ofNat_of_lt' h
    simp [ofKernel, Result.toArgs, BeetKernel.Result.arg, BeetKernel.Result.toArgs, hcid]
  | messageEnvelope me =>
    obtain ⟨sender, body⟩ := me
    cases body <;> rfl
  | _ => rfl

end BeetKernel.Abi
