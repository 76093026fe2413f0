import LibOsdp.Base.Object
import LibOsdp.Codec.Duration
import LibOsdp.Codec.Notification

/-!
# The functions that LibOSDP calls

LibOSDP calls the application's channel and its file ops through functions of the crate, with
pointers that may be null and lengths that may be negative, and the application may answer with a
count that is larger than its buffer. What LibOSDP is told is what its documentation allows, and
what the application is asked is only what makes sense to it, over every run of calls.
-/

set_option autoImplicit false

namespace LibOsdp

open Base Sys

variable {σ : Type}

/-- The memory behind a pointer, of which `size` bytes are for the call. -/
structure Region (size : Nat) where
  bytes : List UInt8
  fits : size ≤ bytes.length

namespace Region

variable {size : Nat}

/-- `slice::from_raw_parts`. -/
def slice (region : Region size) : Vector UInt8 size :=
  ⟨(region.bytes.take size).toArray, by simp [region.fits]⟩

/-- The bytes that are not for the call. -/
def rest (region : Region size) : List UInt8 := region.bytes.drop size

/-- The memory after the slice was written to. -/
def written (region : Region size) (slice : Vector UInt8 size) : Region size :=
  ⟨slice.toList ++ region.rest, by simp⟩

@[simp] theorem rest_written {region : Region size} {slice : Vector UInt8 size} :
    (region.written slice).rest = region.rest := by
  simp [written, rest]

end Region

theorem toInt_neg_one : (-1 : Int32).toInt < 0 := by decide

/-- A count that does not fit an `i32` turns into a failure, and never into a larger count. -/
theorem toInt_ofNat_le (n : Nat) : (Int32.ofNat n).toInt ≤ n := by
  have size : (Int32.size : Int) = 4294967296 := rfl
  rw [Int32.toInt_ofNat', Int.bmod, size]
  split <;> omega

/-! ## The channel -/

/-- `channel.rs`. -/
inductive ChannelError where
  | wouldBlock | transportError
deriving DecidableEq, Repr

/-- `channel.rs`: what an application implements. A slice keeps its length. -/
structure Channel (σ : Type) where
  read {n : Nat} : σ → Vector UInt8 n → (Except ChannelError Nat × Vector UInt8 n) × σ
  write : σ → List UInt8 → Except ChannelError Unit × σ
  flush : σ → σ
  close : σ → σ

namespace Channel

/-- What an application is asked of its channel. -/
inductive Call where
  | read (n : Nat) (buf : Vector UInt8 n)
  | write (buf : List UInt8)
  | flush
  | close

def Answer : Call → Type
  | .read n _ => Except ChannelError Nat × Vector UInt8 n
  | .write _ => Except ChannelError Unit
  | .flush | .close => Unit

def object (channel : Channel σ) : Object σ Call Answer := fun s call =>
  match call with
  | .read _ buf => channel.read s buf
  | .write buf => channel.write s buf
  | .flush => ((), channel.flush s)
  | .close => ((), channel.close s)

end Channel

/-- A call of LibOSDP to a channel: a buffer is null or as long as it says. -/
inductive ChannelCall where
  | recv (len : Int32) (buf : Option (Region len.toInt.toNat))
  | send (len : Int32) (buf : Option (Region len.toInt.toNat))
  | flush
  | close

namespace ChannelCall

/-- The result, and the memory after the call. -/
def Answer : ChannelCall → Type
  | recv len _ => Int32 × Option (Region len.toInt.toNat)
  | send _ _ => Int32
  | flush | close => Unit

end ChannelCall

/-- What LibOSDP is told of a read of up to `len` bytes. -/
def recvCode (len : Int32) : Except ChannelError Nat → Int32
  | .ok n => if n > len.toInt.toNat then -1 else Int32.ofNat n
  | .error .wouldBlock => 0
  | .error .transportError => -1

/-- What LibOSDP is told of a write of `len` bytes. -/
def sendCode (len : Int32) : Except ChannelError Unit → Int32
  | .ok () => len
  | .error .wouldBlock => 0
  | .error .transportError => -1

variable (channel : Channel σ)

def rawRead (s : σ) (len : Int32) (buf : Option (Region len.toInt.toNat)) :
    (Int32 × Option (Region len.toInt.toNat)) × σ :=
  match buf with
  | none => ((-1, none), s)
  | some buf =>
    if len < 0 then ((-1, some buf), s)
    else
      let ((result, slice), s) := channel.read s buf.slice
      ((recvCode len result, some (buf.written slice)), s)

def rawWrite (s : σ) (len : Int32) (buf : Option (Region len.toInt.toNat)) : Int32 × σ :=
  match buf with
  | none => (-1, s)
  | some buf =>
    if len < 0 then (-1, s)
    else
      let (result, s) := channel.write s buf.slice.toList
      (sendCode len result, s)

/-- The struct of functions that `OwnedChannel::as_raw` hands to LibOSDP. -/
def Channel.raw : Object σ ChannelCall ChannelCall.Answer := fun s call =>
  match call with
  | .recv len buf => rawRead channel s len buf
  | .send len buf => rawWrite channel s len buf
  | .flush => ((), channel.flush s)
  | .close => ((), channel.close s)

namespace ChannelCall

/-- A channel is asked to read and write where there is a buffer, and is told of every flush and of
    the close. -/
def interface : Interface ChannelCall Answer Channel.Call Channel.Answer
  | recv _ none => .inl ((-1 : Int32), none)
  | recv len (some buf) =>
    if len < 0 then .inl ((-1 : Int32), some buf)
    else .inr ⟨.read _ buf.slice, fun read => (recvCode len read.1, some (buf.written read.2))⟩
  | send _ none => .inl (-1 : Int32)
  | send len (some buf) =>
    if len < 0 then .inl (-1 : Int32) else .inr ⟨.write buf.slice.toList, sendCode len⟩
  | flush => .inr ⟨.flush, id⟩
  | close => .inr ⟨.close, id⟩

/-- What `osdp_channel` documents: a read tells of no more bytes than the buffer has and touches
    nothing behind it, and a write is of all of the packet, of none of it for now, or fails. -/
def Allowed : (call : ChannelCall) → call.Answer → Prop
  | recv len buf, (rc, buf') =>
    (rc.toInt < 0 ∨ rc.toInt ≤ len.toInt) ∧ buf'.map Region.rest = buf.map Region.rest
  | send len _, rc => rc = len ∨ rc = (0 : Int32) ∨ rc = (-1 : Int32)
  | flush, _ | close, _ => True

theorem raw_eq : channel.raw = interface.behind channel.object := by
  funext s call
  cases call with
  | recv len buf =>
    cases buf with
    | none => rfl
    | some buf =>
      rw [Channel.raw, rawRead, Interface.behind, interface]
      split <;> rfl
  | send len buf =>
    cases buf with
    | none => rfl
    | some buf =>
      rw [Channel.raw, rawWrite, Interface.behind, interface]
      split <;> rfl
  | flush => rfl
  | close => rfl

theorem toInt_recvCode {len : Int32} (pos : 0 ≤ len.toInt) (result : Except ChannelError Nat) :
    (recvCode len result).toInt < 0 ∨ (recvCode len result).toInt ≤ len.toInt := by
  match result with
  | .ok n =>
    rw [recvCode]
    split
    · exact .inl toInt_neg_one
    · next fits =>
      have bound := Int32.toInt_lt len
      rw [Int32.toInt_ofNat_of_lt (by omega)]
      omega
  | .error .wouldBlock => exact .inr pos
  | .error .transportError => exact .inl toInt_neg_one

theorem keeps : interface.Keeps Allowed := by
  intro call
  cases call with
  | recv len buf =>
    cases buf with
    | none => exact ⟨.inl toInt_neg_one, rfl⟩
    | some buf =>
      rw [interface]
      by_cases negative : len < 0
      · rw [if_pos negative]
        exact ⟨.inl toInt_neg_one, rfl⟩
      · rw [if_neg negative]
        have pos : 0 ≤ len.toInt := by
          rw [Int32.lt_iff_toInt_lt, Int32.toInt_zero] at negative
          omega
        exact fun read => ⟨toInt_recvCode pos read.1, congrArg some Region.rest_written⟩
  | send len buf =>
    cases buf with
    | none => exact .inr (.inr rfl)
    | some buf =>
      rw [interface]
      by_cases negative : len < 0
      · rw [if_pos negative]
        exact .inr (.inr rfl)
      · rw [if_neg negative]
        intro result
        match result with
        | .ok () => exact .inl rfl
        | .error .wouldBlock => exact .inr (.inl rfl)
        | .error .transportError => exact .inr (.inr rfl)
  | flush => exact fun _ => trivial
  | close => exact fun _ => trivial

end ChannelCall

/-- **What LibOSDP and the application see of a channel**: over any run of calls, with null buffers
    and negative lengths among them, each answer is one that `osdp_channel` documents, whatever the
    application counts, and the application is asked for the calls that make sense, in order. -/
theorem channel_calls (channel : Channel σ) (s : σ) (calls : List ChannelCall) :
    (∀ served ∈ (channel.raw.run s calls).1, served.call.Allowed served.answer) ∧
      (channel.raw.run s calls).2 =
        (channel.object.run s (calls.filterMap ChannelCall.interface.asks)).2 := by
  rw [ChannelCall.raw_eq]
  exact ⟨Interface.allowed_run _ _ ChannelCall.keeps s calls, Interface.state_run _ _ s calls⟩

/-! ## The file ops -/

/-- `error.rs`: what file ops report. -/
inductive FileError where
  | notFound | notOpen | io
deriving DecidableEq, Repr

/-- `file.rs`: which way a file is opened. -/
inductive OpenMode where
  | read
  | write (size : UInt32)
deriving DecidableEq, Repr

/-- `file.rs`: is a PD done with a file that it received? -/
inductive Finalize where
  | done (outcome : MpOutcome)
  | pending (retryAfter : Duration)
deriving DecidableEq, Repr

/-- `ffi/file.rs`: which end of a transfer file ops serve. -/
inductive FileRole where
  | sender | receiver
deriving DecidableEq, Repr

/-- `Duration::as_millis`. -/
def Duration.asMillis (d : Duration) : Nat := d.toNanos / 1000000

/-- `file.rs`: what an application implements. -/
structure FileOps (σ : Type) where
  openFile : σ → Int32 → OpenMode → Except FileError UInt32 × σ
  read {n : Nat} : σ → Vector UInt8 n → UInt32 → (Except FileError Nat × Vector UInt8 n) × σ
  write : σ → List UInt8 → UInt32 → Except FileError Nat × σ
  close : σ → Except FileError Unit × σ
  finalize : σ → Finalize × σ

namespace FileOps

/-- What an application is asked of its file ops. -/
inductive Call where
  | openFile (id : Int32) (mode : OpenMode)
  | read (n : Nat) (buf : Vector UInt8 n) (offset : UInt32)
  | write (buf : List UInt8) (offset : UInt32)
  | close
  | finalize

def Answer : Call → Type
  | .openFile _ _ => Except FileError UInt32
  | .read n _ _ => Except FileError Nat × Vector UInt8 n
  | .write _ _ => Except FileError Nat
  | .close => Except FileError Unit
  | .finalize => Finalize

def object (ops : FileOps σ) : Object σ Call Answer := fun s call =>
  match call with
  | .openFile id mode => ops.openFile s id mode
  | .read _ buf offset => ops.read s buf offset
  | .write buf offset => ops.write s buf offset
  | .close => ops.close s
  | .finalize => ops.finalize s

end FileOps

/-- A call of LibOSDP to file ops. A pointer to a number is null or to a number. -/
inductive FileCall where
  | openFile (id : Int32) (size : Option UInt32)
  | read (size offset : UInt32) (buf : Option (Region size.toNat))
  | write (size offset : UInt32) (buf : Option (Region size.toNat))
  | close
  | finalize (outcome : Option UInt8) (delay : Option UInt16)

namespace FileCall

/-- The result, and the memory after the call where it is written to. -/
def Answer : FileCall → Type
  | openFile _ _ => Int32 × Option UInt32
  | read size _ _ => Int32 × Option (Region size.toNat)
  | write _ _ _ | close => Int32
  | finalize _ _ => Bool × Option UInt8 × Option UInt16

end FileCall

def FileRole.mode (role : FileRole) (size : UInt32) : OpenMode :=
  match role with
  | .sender => .read
  | .receiver => .write size

/-- What LibOSDP is told of an open, and the size after it. -/
def openCode (mode : OpenMode) (size : UInt32) : Except FileError UInt32 → Int32 × UInt32
  | .ok fileSize => (0, if mode = .read then fileSize else size)
  | .error _ => (-1, size)

/-- What LibOSDP is told of a read or a write of up to `size` bytes. -/
def countCode (size : UInt32) : Except FileError Nat → Int32
  | .ok len => if len ≤ size.toNat then Int32.ofNat len else -1
  | .error _ => -1

def closeCode : Except FileError Unit → Int32
  | .ok () => 0
  | .error _ => -1

/-- What LibOSDP is told of a file that was received, with the outcome and the delay after it. -/
def finalizeCode (outcome : UInt8) (delay : UInt16) : Finalize → Bool × UInt8 × UInt16
  | .done done => (true, done.intoRaw, delay)
  | .pending retryAfter =>
    let millis := if retryAfter.asMillis < 65536 then UInt16.ofNat retryAfter.asMillis else 65535
    (false, outcome, millis)

variable (ops : FileOps σ) (role : FileRole)

def fileOpen (s : σ) (id : Int32) (size : Option UInt32) : (Int32 × Option UInt32) × σ :=
  match size with
  | none => ((-1, none), s)
  | some size =>
    let (result, s) := ops.openFile s id (role.mode size)
    let (rc, size) := openCode (role.mode size) size result
    ((rc, some size), s)

def fileRead (s : σ) (size offset : UInt32) (buf : Option (Region size.toNat)) :
    (Int32 × Option (Region size.toNat)) × σ :=
  match buf with
  | none => ((-1, none), s)
  | some buf =>
    let ((result, slice), s) := ops.read s buf.slice offset
    ((countCode size result, some (buf.written slice)), s)

def fileWrite (s : σ) (size offset : UInt32) (buf : Option (Region size.toNat)) : Int32 × σ :=
  match buf with
  | none => (-1, s)
  | some buf =>
    let (result, s) := ops.write s buf.slice.toList offset
    (countCode size result, s)

def fileClose (s : σ) : Int32 × σ :=
  let (result, s) := ops.close s
  (closeCode result, s)

def fileFinalize (s : σ) (outcome : Option UInt8) (delay : Option UInt16) :
    (Bool × Option UInt8 × Option UInt16) × σ :=
  match outcome, delay with
  | some outcome, some delay =>
    let (answer, s) := ops.finalize s
    let (done, outcome, delay) := finalizeCode outcome delay answer
    ((done, some outcome, some delay), s)
  | outcome, delay => ((true, outcome, delay), s)

/-- The struct of functions that `OwnedFileOps::as_raw` hands to LibOSDP. A sender has no
    `finalize`, which LibOSDP takes for a file that is done. -/
def FileOps.raw : Object σ FileCall FileCall.Answer := fun s call =>
  match call with
  | .openFile id size => fileOpen ops role s id size
  | .read size offset buf => fileRead ops s size offset buf
  | .write size offset buf => fileWrite ops s size offset buf
  | .close => fileClose ops s
  | .finalize outcome delay =>
    match role with
    | .sender => ((true, outcome.map fun _ => OSDP_MP_OUTCOME_OK, delay), s)
    | .receiver => fileFinalize ops s outcome delay

/-- A sender only opens for reading and does not finalize, and a receiver only opens for writing. -/
def FileOps.Call.Suits (role : FileRole) : FileOps.Call → Prop
  | openFile _ mode => mode = .read ↔ role = .sender
  | finalize => role = .receiver
  | read _ _ _ | write _ _ | close => True

namespace FileCall

/-- File ops are asked where there is what the call needs: to open for reading at the sender and
    for writing at the receiver, and to finalize at the receiver only. -/
def interface : Interface FileCall Answer FileOps.Call FileOps.Answer
  | openFile _ none => .inl ((-1 : Int32), none)
  | openFile id (some size) => .inr ⟨.openFile id (role.mode size), fun result =>
      ((openCode (role.mode size) size result).1, some (openCode (role.mode size) size result).2)⟩
  | read _ _ none => .inl ((-1 : Int32), none)
  | read size offset (some buf) => .inr ⟨.read _ buf.slice offset, fun read =>
      (countCode size read.1, some (buf.written read.2))⟩
  | write _ _ none => .inl (-1 : Int32)
  | write size offset (some buf) => .inr ⟨.write buf.slice.toList offset, countCode size⟩
  | close => .inr ⟨.close, closeCode⟩
  | finalize outcome delay =>
    match role, outcome, delay with
    | .sender, outcome, delay => .inl (true, outcome.map fun _ => OSDP_MP_OUTCOME_OK, delay)
    | .receiver, some outcome, some delay => .inr ⟨.finalize, fun answer =>
        ((finalizeCode outcome delay answer).1, some (finalizeCode outcome delay answer).2.1,
          some (finalizeCode outcome delay answer).2.2)⟩
    | .receiver, outcome, delay => .inl (true, outcome, delay)

/-- What `osdp_file_ops` documents: no count exceeds the buffer, nothing behind it is touched, only
    a sender fills in a size, and an outcome is filled in exactly where a file is done. -/
def Allowed : (call : FileCall) → call.Answer → Prop
  | openFile _ size, (rc, size') => (rc = 0 ∨ rc = -1) ∧ size'.isSome = size.isSome ∧
      (role = .receiver ∨ rc = -1 → size' = size)
  | read size _ buf, (rc, buf') => rc.toInt ≤ size.toNat ∧
      buf'.map Region.rest = buf.map Region.rest
  | write size _ _, rc => Int32.toInt rc ≤ size.toNat
  | close, rc => rc = (0 : Int32) ∨ rc = (-1 : Int32)
  | finalize outcome delay, (done, outcome', delay') =>
    if done then
      delay' = delay ∧ (outcome' = outcome ∨ ∃ done : MpOutcome, outcome' = some done.intoRaw)
    else role = .receiver ∧ outcome' = outcome ∧ outcome.isSome ∧ delay.isSome

variable {ops : FileOps σ} {role : FileRole}

theorem raw_eq : ops.raw role = (interface role).behind ops.object := by
  funext s call
  cases call with
  | openFile id size => cases size <;> rfl
  | read size offset buf => cases buf <;> rfl
  | write size offset buf => cases buf <;> rfl
  | close => rfl
  | finalize outcome delay => cases role <;> cases outcome <;> cases delay <;> rfl

theorem toInt_countCode {size : UInt32} (result : Except FileError Nat) :
    (countCode size result).toInt ≤ size.toNat := by
  have failed : (-1 : Int32).toInt ≤ size.toNat := le_of_lt (toInt_neg_one.trans_le (Int.natCast_nonneg _))
  match result with
  | .ok len =>
    rw [countCode]
    split
    · next fits => exact (toInt_ofNat_le len).trans (Int.ofNat_le.mpr fits)
    · exact failed
  | .error _ => exact failed

theorem openCode_allowed {size : UInt32} (result : Except FileError UInt32) :
    Allowed role (.openFile 0 (some size)) ((openCode (role.mode size) size result).1,
      some (openCode (role.mode size) size result).2) := by
  match role, result with
  | .sender, .ok _ => exact ⟨.inl rfl, rfl, by rintro (h | h) <;> cases h⟩
  | .receiver, .ok _ => exact ⟨.inl rfl, rfl, fun _ => rfl⟩
  | .sender, .error _ => exact ⟨.inr rfl, rfl, fun _ => rfl⟩
  | .receiver, .error _ => exact ⟨.inr rfl, rfl, fun _ => rfl⟩

theorem keeps : (interface role).Keeps (Allowed role) := by
  intro call
  cases call with
  | openFile id size =>
    cases size with
    | none => exact ⟨.inr rfl, rfl, fun _ => rfl⟩
    | some size => exact openCode_allowed
  | read size offset buf =>
    cases buf with
    | none => exact ⟨@toInt_countCode size (.error .io), rfl⟩
    | some buf => exact fun read => ⟨toInt_countCode read.1, congrArg some Region.rest_written⟩
  | write size offset buf =>
    cases buf with
    | none => exact @toInt_countCode size (.error .io)
    | some buf => exact toInt_countCode
  | close =>
    intro result
    match result with
    | .ok () => exact .inl rfl
    | .error _ => exact .inr rfl
  | finalize outcome delay =>
    match role, outcome, delay with
    | .sender, none, _ => exact ⟨rfl, .inl rfl⟩
    | .sender, some _, _ => exact ⟨rfl, .inr ⟨.ok, rfl⟩⟩
    | .receiver, none, _ => exact ⟨rfl, .inl rfl⟩
    | .receiver, some _, none => exact ⟨rfl, .inl rfl⟩
    | .receiver, some _, some _ =>
      intro answer
      match answer with
      | .done done => exact ⟨rfl, .inr ⟨done, rfl⟩⟩
      | .pending _ => exact ⟨rfl, rfl, rfl, rfl⟩

theorem suits_of_asks {call : FileCall} {asked : FileOps.Call}
    (asks : (interface role).asks call = some asked) : asked.Suits role := by
  rw [Interface.asks] at asks
  cases call with
  | openFile id size =>
    cases size with
    | none => cases asks
    | some size =>
      cases role with
      | sender =>
        obtain rfl := Option.some.inj asks
        exact iff_of_true rfl rfl
      | receiver =>
        obtain rfl := Option.some.inj asks
        exact iff_of_false (by simp [FileRole.mode]) (by decide)
  | read size offset buf =>
    cases buf with
    | none => cases asks
    | some buf =>
      obtain rfl := Option.some.inj asks
      trivial
  | write size offset buf =>
    cases buf with
    | none => cases asks
    | some buf =>
      obtain rfl := Option.some.inj asks
      trivial
  | close =>
    obtain rfl := Option.some.inj asks
    trivial
  | finalize outcome delay =>
    -- only a receiver is asked, and only with somewhere to put the answer
    cases role with
    | sender => cases asks
    | receiver =>
      cases outcome with
      | none => cases asks
      | some outcome =>
        cases delay with
        | none => cases asks
        | some delay =>
          obtain rfl := Option.some.inj asks
          rfl

end FileCall

/-- **What LibOSDP and the application see of file ops**: over any run of calls, with null pointers
    among them, each answer is one that `osdp_file_ops` documents, whatever the application counts,
    and the application goes through the calls that make sense, in order, each of them one that
    suits its role. -/
theorem file_calls (ops : FileOps σ) (role : FileRole) (s : σ) (calls : List FileCall) :
    (∀ served ∈ ((ops.raw role).run s calls).1, served.call.Allowed role served.answer) ∧
      ((ops.raw role).run s calls).2 =
        (ops.object.run s (calls.filterMap (FileCall.interface role).asks)).2 ∧
      ∀ asked ∈ calls.filterMap (FileCall.interface role).asks, asked.Suits role := by
  rw [FileCall.raw_eq]
  refine ⟨Interface.allowed_run _ _ FileCall.keeps s calls, Interface.state_run _ _ s calls, ?_⟩
  intro asked mem
  obtain ⟨call, -, asks⟩ := List.mem_filterMap.mp mem
  exact FileCall.suits_of_asks asks

end LibOsdp
