import LibOsdp.Ctx.Reply

/-!
# Kinds of replies

A route names a PD and a submission, and no kind: `deliver_reply` hands a PIV, general or
challenge authenticate reply to whichever of the three waits on the PD. A handle resolves into a
reply of its own kind, and is left alone by the others, exactly in the runs in which no reply
comes while a handle of another kind waits.
-/

set_option autoImplicit false

namespace LibOsdp

open Base Function

namespace Context

variable {c c' : Context} {role : Role} {act : Act} {n : Sub}

/-- The step hands over no reply on a PD where a handle of another kind waits. -/
def OwnKind (h : Hop Context Act) : Bool :=
  match h.act with
  | .lib (.event pd raw) =>
    match smartCardReplyOf raw, h.src.waiting (.ofC pd) with
    | some (_, kind, _), some n => n.kind = some kind
    | _, _ => true
  | _ => true

theorem ownKind_iff {h : Hop Context Act} : OwnKind h = true ↔
    ∀ pd raw event kind reply n, h.act = .lib (.event pd raw) →
      smartCardReplyOf raw = some (event, kind, reply) → h.src.waiting (.ofC pd) = some n →
      n.kind = some kind := by
  obtain ⟨c, act, c'⟩ := h
  constructor
  · rintro own pd raw event kind reply n rfl isReply waits
    simpa [OwnKind, isReply, waits] using own
  · intro own
    unfold OwnKind
    split
    · next pd raw isEvent =>
      split
      · next event kind reply n isReply waits =>
        simpa using own pd raw event kind reply n isEvent isReply waits
      · rfl
    · rfl

/-- A reply of another kind than that of the handle that waits on the PD is queued, and the handle
still waits. -/
def OthersQueued (h : Hop Context Act) : Prop :=
  ∀ pd raw event kind reply n, h.act = .lib (.event pd raw) →
    smartCardReplyOf raw = some (event, kind, reply) → h.src.waiting (.ofC pd) = some n →
    n.kind ≠ some kind →
    h.dst.slots = h.src.slots ∧ h.dst.queue = h.src.queue.push (.cp (.ofC pd) (.event event)) ∧
      h.dst.waiting (.ofC pd) = some n

/-- The step hands `n`, which waits for it, a reply of its kind. -/
def AnswersKind (h : Hop Context Act) (n : Sub) (reply : PivReply) : Prop :=
  ∃ pd raw event kind, h.act = .lib (.event pd raw) ∧
    smartCardReplyOf raw = some (event, kind, reply) ∧ h.src.waiting (.ofC pd) = some n ∧
    n.kind = some kind

/-- Kinds are kept apart in a run. -/
structure KindsKept (hops : List (Hop Context Act)) (c : Context) : Prop where
  /-- A handle resolves into the payload of a reply of its own kind. -/
  resolved : ∀ n reply, (c.slots n).replyStatus = some (.ok reply) →
    ∃ h ∈ hops, AnswersKind h n reply
  /-- A reply of another kind leaves the handle waiting. -/
  others : ∀ h ∈ hops, OthersQueued h

/-- `deliver_reply` takes the route down whatever the reply's kind. -/
theorem not_waiting_deliverReply {pd : PdIndex} {event : Event} {kind : MpKind}
    {reply : PivReply} : (c.deliverReply pd event kind reply).waiting pd = none := by
  have none : (c.deliverReply pd event kind reply).replies pd = none := by
    unfold deliverReply
    split <;> simp
  simp [waiting, none]

/-- So a step leaves the handles of other kinds waiting only where there are none. -/
theorem ownKind_of_othersQueued (hstep : LibOsdp.step role c act = some c')
    (others : OthersQueued ⟨c, act, c'⟩) : OwnKind ⟨c, act, c'⟩ = true := by
  rw [ownKind_iff]
  rintro pd raw event kind reply n rfl isReply waits
  by_contra other
  obtain ⟨-, -, still⟩ := others pd raw event kind reply n rfl isReply waits other
  obtain rfl := deliverReply_of_step hstep isReply
  have gone : (c.deliverReply (.ofC pd) event kind reply).waiting (.ofC pd) = none :=
    not_waiting_deliverReply
  exact absurd (gone.symm.trans still) nofun

theorem ownKind_of_kindsKept {s : Context} {hops : List (Hop Context Act)}
    (run : Run (LibOsdp.step role) s hops c) (kept : KindsKept hops c) :
    ∀ h ∈ hops, OwnKind h = true := by
  intro h mem
  obtain ⟨_, _, -, -, hstep, -⟩ := run.cut mem
  exact ownKind_of_othersQueued hstep (kept.others h mem)

/-- What a slot holds is of its submission's kind, where no other kind was handed over to it. -/
theorem answersKind_of_stored {capacity : Nat} {pos : 0 < capacity} {hops : List (Hop Context Act)}
    (run : Run (LibOsdp.step role) (new capacity pos) hops c) (own : ∀ h ∈ hops, OwnKind h = true)
    (n : Sub) (reply : PivReply) (stored : (c.slots n).reply = some reply) :
    ∃ h ∈ hops, AnswersKind h n reply := by
  induction run generalizing reply with
  | nil => cases stored
  | @snoc hops x y a run hstep ih =>
    have before := ih fun h mem => own h (List.mem_append_left _ mem)
    rcases reply_cases (Rule.of_step hstep) n with
      same | ⟨-, none⟩ | ⟨pd, raw, event, kind, reply', isEvent, isReply, waits, set⟩
    · obtain ⟨h, mem, answers⟩ := before reply (same.symm.trans stored)
      exact ⟨h, List.mem_append_left _ mem, answers⟩
    · exact absurd (none.symm.trans stored) nofun
    · obtain rfl := Option.some.inj (set.symm.trans stored)
      have ownKind := ownKind_iff.mp (own ⟨x, a, y⟩ (by simp))
      refine ⟨⟨x, a, y⟩, by simp, pd, raw, event, kind, isEvent, isReply, waits, ?_⟩
      exact ownKind pd raw event kind reply' n isEvent isReply waits

/-- **Kinds are kept apart exactly when no reply crosses them**: in every run, whatever LibOSDP
hands over and when. -/
theorem reply_kinds_exact {capacity : Nat} {pos : 0 < capacity} {hops : List (Hop Context Act)}
    (run : Run (LibOsdp.step .cp) (new capacity pos) hops c) :
    KindsKept hops c ↔ ∀ h ∈ hops, OwnKind h = true := by
  constructor
  · exact ownKind_of_kindsKept run
  · intro own
    refine { resolved := ?_, others := ?_ }
    · intro n reply resolved
      exact answersKind_of_stored run own n reply (Slot.replyStatus_eq_ok.mp resolved).2
    · intro h mem pd raw event kind reply n isEvent isReply waits other
      exact absurd (ownKind_iff.mp (own h mem) pd raw event kind reply n isEvent isReply waits) other

/-- A challenge is answered while a PIV request waits on another PD. -/
theorem reply_kinds_exact_generalAuth : ∃ hops c,
    Run (LibOsdp.step .cp) (new 32 (by decide)) hops c ∧ KindsKept hops c ∧
      (c.slots ⟨1, 1, some .genAuth, true⟩).replyStatus = some (.ok ⟨[0]⟩) := by
  let answer : Sys.OsdpEvent :=
    { type := Sys.OSDP_EVENT_GENAUTHR, payload := { pivReply := { length := 1 } } }
  let acts : List Act :=
    [.app (.submit 0 (.pivData ⟨#v[0x5f, 0xc1, 0x02], 0, 0⟩)), .lib .accept, .lib (.ret 0), .tick,
      .tick, .app (.submit 1 (.generalAuth ⟨0, 0, [1]⟩)), .lib .accept, .lib (.ret 0), .tick, .tick,
      .app .refresh, .lib (.event 1 answer),
      .lib (.complete ⟨1, 1, some .genAuth, true⟩ OSDP_COMPLETION_OK), .lib (.ret 0), .tick, .tick]
  have run := @run_trace _ _ (LibOsdp.step .cp) acts (new 32 (by decide)) (by decide)
  exact ⟨_, _, run, (reply_kinds_exact run).mpr (by decide), by decide⟩

/-- A PIV request that follows a cancelled challenge resolves into the late answer to it. -/
theorem reply_kinds_crossed : ∃ hops c, Run (LibOsdp.step .cp) (new 32 (by decide)) hops c ∧
    (c.slots ⟨1, 0, some .piv, true⟩).replyStatus = some (.ok ⟨[0]⟩) ∧ ¬ KindsKept hops c := by
  let late : Sys.OsdpEvent :=
    { type := Sys.OSDP_EVENT_GENAUTHR, payload := { pivReply := { length := 1 } } }
  let auth : Sub := ⟨0, 0, some .genAuth, true⟩
  let piv : Sub := ⟨1, 0, some .piv, true⟩
  let acts : List Act :=
    [.app (.submit 0 (.generalAuth ⟨0, 0, [1]⟩)), .lib .accept, .lib (.ret 0), .tick, .tick,
      .app (.cancel auth), .app .refresh, .lib (.complete auth OSDP_COMPLETION_FAILED),
      .lib (.ret 0), .tick, .tick, .app (.submit 0 (.pivData ⟨#v[0x5f, 0xc1, 0x02], 0, 0⟩)),
      .lib .accept, .lib (.ret 0), .tick, .tick, .app .refresh, .lib (.event 0 late),
      .lib (.complete piv OSDP_COMPLETION_OK), .lib (.ret 0), .tick, .tick]
  have run := @run_trace _ _ (LibOsdp.step .cp) acts (new 32 (by decide)) (by decide)
  exact ⟨_, _, run, by decide, fun kept => absurd (ownKind_of_kindsKept run kept) (by decide)⟩

end Context

end LibOsdp
