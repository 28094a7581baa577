import Dendy.Netplay.Reconcile

/-!
# The netplay session

`Netplay` of the session source: the game thread's `SendReset`, `SendInput` and `RunFrame`, and the reader, which puts
each message it reads from the connection on `toRecv`. `toSend` is the outbound queue, oldest first; the writer sends
it to the connection in that order, so it is kept as the list of every message queued. The channels' capacity, the
connection and `stop` are not modelled.

The session is written against a version of `Game` that is not among the sources. Its calls map to
`netplay/game.go` as the spec says: `Reset(cp)` is `Init(cp)`, `AddLocalInput` is `HandleLocalInput`, and
`AddRemoteInput` of a batch is one `HandleRemoteInput` per bitmap, in order. Frames are `uint32`, as in `game.go` and
on the wire.

Messages are values. The source's `SendReset` queues a `Reset` whose payload is the checkpoint's own byte slice, and
`Game.save` writes the next checkpoint into the same array (`bytes.NewBuffer(g.cp.State[:0])`): if the game saves
before the writer has sent the `Reset`, the message carries the later state. The model queues the bytes as they are
at the call; the batching result (`queued_batches_in_order`) reads only the type and frame of the `Reset` it queued.

Local input goes out in batches of `inputBatchSize` bitmaps, each labelled with the frame of its first bitmap. While
no `Reset` comes in from the peer, a session that starts the game queues its inputs in order, five at a time, the
`k`-th batch labelled `5k` (`Batching.run`). A `Reset` taken off `toRecv` drops the pending batch and labels the next
ones from the frame it carries.
-/

namespace Dendy

inductive MsgType
  | reset
  | input
  | bye
  deriving DecidableEq, Repr

structure Message where
  type : MsgType
  frame : UInt32
  payload : List UInt8
  deriving DecidableEq, Repr

/-- Modelled from the spec: `InputBatch` is not among the sources. It is a batch of consecutive input bitmaps
starting at `StartFrame`; `Add` appends a bitmap and `Len` counts them. -/
structure InputBatch where
  startFrame : UInt32
  input : List UInt8
  deriving DecidableEq, Repr

namespace InputBatch

def add (b : InputBatch) (buttons : UInt8) : InputBatch := { b with input := b.input ++ [buttons] }

def len (b : InputBatch) : Nat := b.input.length

end InputBatch

def inputBatchSize : Nat := 5

structure Netplay (S : Type) where
  game : Game S
  toRecv : List Message
  toSend : List Message
  inputBatch : InputBatch

namespace Netplay

variable {S : Type} (M : Console S)

/-- `Listen` or `Connect`, once the connection is up: both queues empty and the batch at its zero value. -/
def listen (game : Game S) : Netplay S := { game, toRecv := [], toSend := [], inputBatch := ⟨0, []⟩ }

/-- Modelled from the spec: the session's `Game.AddRemoteInput` is not among the sources. The receiver enqueues each
bitmap of the batch with `HandleRemoteInput`, in order. -/
def addRemoteInput (g : Game S) (batch : InputBatch) : Game S := batch.input.foldl Game.handleRemoteInput g

def resetInputBatch (np : Netplay S) (startFrame : UInt32) : Netplay S :=
  { np with inputBatch := ⟨startFrame, []⟩ }

def handleMessage (np : Netplay S) (msg : Message) : Option (Netplay S × Bool) :=
  match msg.type with
  | .reset => do
    let np := resetInputBatch np msg.frame
    let game ← Game.init M np.game (some ⟨msg.frame, msg.payload⟩)
    some ({ np with game }, false)
  | .input => some ({ np with game := addRemoteInput np.game ⟨msg.frame, msg.payload⟩ }, true)
  | .bye => some (np, true)

/-- The `Reset` carries the checkpoint's bytes when it is queued; in the source it holds `cp.State` itself, which the
next `save` rewrites in place. -/
def sendReset (np : Netplay S) : Option (Netplay S) := do
  let game ← Game.init M np.game none
  let np := resetInputBatch { np with game } 0
  let cp := np.game.checkpoint
  some { np with toSend := np.toSend ++ [⟨.reset, cp.frame, cp.state⟩] }

def sendInput (np : Netplay S) (buttons : UInt8) : Netplay S :=
  let np := { np with game := np.game.handleLocalInput buttons, inputBatch := np.inputBatch.add buttons }
  if np.inputBatch.len ≥ inputBatchSize then
    { np with toSend := np.toSend ++ [⟨.input, np.inputBatch.startFrame, np.inputBatch.input⟩],
              inputBatch := ⟨np.game.frameNumber + 1, []⟩ }
  else np

/-- The `select` of `RunFrame`: one message off `toRecv`, if there is one, handled. -/
def pollMessage (np : Netplay S) : Option (Netplay S) :=
  match np.toRecv with
  | msg :: toRecv => (handleMessage M { np with toRecv } msg).map Prod.fst
  | [] => some np

def runFrame (np : Netplay S) : Option (Netplay S) := do
  let np ← pollMessage M np
  let game ← Game.runFrame M np.game
  some { np with game }

/-- What happens to a session: a call of the game loop, or the reader putting a message read from the connection on
`toRecv`. -/
inductive Event
  | sendReset
  | sendInput (buttons : UInt8)
  | runFrame
  | receive (msg : Message)
  deriving DecidableEq, Repr

def step (np : Netplay S) : Event → Option (Netplay S)
  | .sendReset => sendReset M np
  | .sendInput buttons => some (sendInput np buttons)
  | .runFrame => runFrame M np
  | .receive msg => some { np with toRecv := np.toRecv ++ [msg] }

def run (np : Netplay S) (evs : List Event) : Option (Netplay S) := evs.foldlM (step M) np

/-- A call of the game loop, as opposed to a message the reader delivers. -/
def Event.isCall : Event → Bool
  | .receive _ => false
  | _ => true

def Event.deliversReset : Event → Bool
  | .receive msg => msg.type == .reset
  | _ => false

@[simp] theorem Event.deliversReset_receive (msg : Message) :
    (Event.receive msg).deliversReset = false ↔ msg.type ≠ .reset := by
  simp [Event.deliversReset]

/-- The game loop from its first input on: frame after frame, that frame's input and then the frame. -/
def frameCalls (bs : List UInt8) : List Event := bs.flatMap fun b => [.sendInput b, .runFrame]

/-- The game loop of a session that starts the game: `SendReset`, then `frameCalls`. -/
def loopCalls (bs : List UInt8) : List Event := .sendReset :: frameCalls bs

/-- The batches of the inputs `bs` as the spec describes them: one per five frames, the `k`-th labelled `5k` and
holding the inputs of frames `5k` to `5k + 4`. -/
def batches (bs : List UInt8) : List Message :=
  (List.range (bs.length / 5)).map fun k => ⟨.input, (5 * k).toUInt32, (bs.drop (5 * k)).take 5⟩

/-! ### The batches -/

private theorem take_drop_append {xs ys : List UInt8} {i n : Nat} (h : i + n ≤ xs.length) :
    ((xs ++ ys).drop i).take n = (xs.drop i).take n := by
  rw [List.drop_append_of_le_length (by omega), List.take_append_of_le_length (by simp; omega)]

theorem batches_snoc (xs : List UInt8) (b : UInt8) :
    batches (xs ++ [b]) = batches xs ++
      if (xs.length + 1) % 5 = 0 then
        [⟨.input, (5 * (xs.length / 5)).toUInt32, (xs ++ [b]).drop (5 * (xs.length / 5))⟩]
      else [] := by
  have hwin : ∀ k ∈ List.range (xs.length / 5),
      (⟨.input, (5 * k).toUInt32, ((xs ++ [b]).drop (5 * k)).take 5⟩ : Message) =
        ⟨.input, (5 * k).toUInt32, (xs.drop (5 * k)).take 5⟩ := fun k hk => by
    rw [take_drop_append (by have := List.mem_range.mp hk; omega)]
  unfold batches
  rw [List.length_append, List.length_singleton]
  split_ifs with h
  · rw [show (xs.length + 1) / 5 = xs.length / 5 + 1 by omega, List.range_succ, List.map_append,
      List.map_congr_left hwin, List.map_singleton, List.take_of_length_le (by simp; omega)]
  · rw [show (xs.length + 1) / 5 = xs.length / 5 by omega, List.map_congr_left hwin, List.append_nil]

/-! ### One event -/

@[simp] theorem addRemoteInput_frame (g : Game S) (batch : InputBatch) : (addRemoteInput g batch).frame = g.frame := by
  obtain ⟨_, bs⟩ := batch
  induction bs generalizing g with
  | nil => rfl
  | cons b bs ih => exact ih _

/-- A message other than `Reset` touches nothing of the session but the game, and not its frame. -/
theorem handleMessage_of_ne_reset (np : Netplay S) {msg : Message} (hm : msg.type ≠ .reset) :
    ∃ game, handleMessage M np msg = some ({ np with game }, true) ∧ game.frame = np.game.frame := by
  unfold handleMessage
  split
  · contradiction
  · exact ⟨_, rfl, addRemoteInput_frame _ _⟩
  · exact ⟨_, rfl, rfl⟩

theorem pollMessage_eq_some {np np' : Netplay S} (hr : ∀ msg ∈ np.toRecv, msg.type ≠ .reset)
    (h : pollMessage M np = some np') :
    ∃ game, np' = { np with game, toRecv := np.toRecv.tail } ∧ game.frame = np.game.frame := by
  unfold pollMessage at h
  split at h
  · rename_i msg toRecv hq
    obtain ⟨game, hg, hf⟩ := handleMessage_of_ne_reset M { np with toRecv } (hr msg (by simp [hq]))
    rw [hg] at h
    cases h
    exact ⟨game, by simp [hq], hf⟩
  · cases h
    refine ⟨np.game, ?_, rfl⟩
    cases np
    simp_all

theorem sendReset_eq (np : Netplay S) : sendReset M np = some
    { np with game := Game.save M { np.game with frame := 0, gen := np.game.gen + 1, localInput := .new,
                                                 remoteInput := .new, speculatedInput := .new },
              inputBatch := ⟨0, []⟩, toSend := np.toSend ++ [⟨.reset, 0, M.saveState np.game.bus⟩] } := rfl

/-! ### Batching -/

/-- A session `ran` frames into a game it started with the message `head`, the inputs `done` sent: their batches
follow `head`, the rest is pending, and no `Reset` waits on `toRecv`. -/
structure Batching (np : Netplay S) (head : Message) (done : List UInt8) (ran : Nat) : Prop where
  frame : np.game.frame.toNat = ran
  startFrame : np.inputBatch.startFrame = (5 * (done.length / 5)).toUInt32
  input : np.inputBatch.input = done.drop (5 * (done.length / 5))
  toSend : np.toSend = head :: batches done
  toRecv : ∀ msg ∈ np.toRecv, msg.type ≠ .reset

section Steps

variable {M} {np np' : Netplay S} {head : Message} {done : List UInt8} {ran : Nat}

theorem Batching.sendReset (hr : ∀ msg ∈ np.toRecv, msg.type ≠ .reset) (h0 : np.toSend = []) :
    Batching { np with game := Game.save M { np.game with frame := 0, gen := np.game.gen + 1, localInput := .new,
                                                          remoteInput := .new, speculatedInput := .new },
                       inputBatch := ⟨0, []⟩, toSend := np.toSend ++ [⟨.reset, 0, M.saveState np.game.bus⟩] }
      ⟨.reset, 0, M.saveState np.game.bus⟩ [] 0 :=
  ⟨rfl, rfl, rfl, by rw [h0]; rfl, hr⟩

private theorem ne_reset_append {ms : List Message} {msg : Message} (hr : ∀ m ∈ ms, m.type ≠ .reset)
    (hm : msg.type ≠ .reset) : ∀ m ∈ ms ++ [msg], m.type ≠ .reset :=
  fun m h => (List.mem_append.mp h).elim (hr m) fun h => List.mem_singleton.mp h ▸ hm

theorem Batching.receive (hb : Batching np head done ran) {msg : Message} (hm : msg.type ≠ .reset) :
    Batching { np with toRecv := np.toRecv ++ [msg] } head done ran :=
  ⟨hb.frame, hb.startFrame, hb.input, hb.toSend, ne_reset_append hb.toRecv hm⟩

theorem Batching.sendInput (hb : Batching np head done done.length) (b : UInt8) :
    Batching (Netplay.sendInput np b) head (done ++ [b]) done.length := by
  have hlen : (np.inputBatch.add b).len = done.length % 5 + 1 := by
    simp only [InputBatch.len, InputBatch.add, hb.input, List.length_append, List.length_drop,
      List.length_singleton]
    omega
  have hdrop : np.inputBatch.input ++ [b] = (done ++ [b]).drop (5 * (done.length / 5)) := by
    rw [hb.input, List.drop_append_of_le_length (by omega)]
  unfold Netplay.sendInput
  dsimp only
  split_ifs with hfull
  · rw [hlen, inputBatchSize] at hfull
    have hd : 5 * ((done ++ [b]).length / 5) = done.length + 1 := by
      simp only [List.length_append, List.length_singleton]; omega
    refine ⟨by simpa using hb.frame, ?_, by rw [hd]; exact (List.drop_eq_nil_of_le (by simp)).symm, ?_, hb.toRecv⟩
    · rw [hd, UInt32.eq_iff_toNat_eq, UInt32.toNat_add_one, Nat.toUInt32_toNat, Game.frameNumber,
        Game.handleLocalInput_frame, hb.frame]
    · show np.toSend ++ [⟨.input, np.inputBatch.startFrame, np.inputBatch.input ++ [b]⟩] = _
      rw [hb.toSend, batches_snoc, if_pos (by omega), hb.startFrame, hdrop]
      rfl
  · rw [hlen, inputBatchSize] at hfull
    have hd : (done ++ [b]).length / 5 = done.length / 5 := by simp; omega
    refine ⟨by simpa using hb.frame, ?_, ?_, ?_, hb.toRecv⟩
    · show np.inputBatch.startFrame = _
      rw [hd, hb.startFrame]
    · show np.inputBatch.input ++ [b] = _
      rw [hd, hdrop]
    rw [hb.toSend, batches_snoc, if_neg (by omega), List.append_nil]

theorem Batching.runFrame (hb : Batching np head done ran) (h : Netplay.runFrame M np = some np') :
    Batching np' head done (ran + 1) := by
  simp only [Netplay.runFrame, Option.bind_eq_bind, Option.bind_eq_some] at h
  obtain ⟨np₁, h₁, game, hg, ⟨⟩⟩ := h
  obtain ⟨game₁, rfl, hf⟩ := pollMessage_eq_some M hb.toRecv h₁
  refine ⟨?_, hb.startFrame, hb.input, hb.toSend, fun m hm => hb.toRecv m (List.mem_of_mem_tail hm)⟩
  rw [Game.runFrame_frame M hg, hf, hb.frame]

/-- A run of frames from a batching state, with messages other than `Reset` delivered at any points; `pending` says
that the input of the current frame has been sent and the frame is still to run. -/
theorem Batching.run (hb : Batching np head done ran) (pending : Bool) (hran : ran + pending.toNat = done.length)
    (bs : List UInt8) {evs : List Event}
    (hcalls : evs.filter Event.isCall = (if pending then [.runFrame] else []) ++ frameCalls bs)
    (hnr : ∀ e ∈ evs, e.deliversReset = false) (h : Netplay.run M np evs = some np') :
    Batching np' head (done ++ bs) (done ++ bs).length := by
  induction evs generalizing np done ran pending bs with
  | nil =>
    cases h
    cases pending <;> cases bs <;> simp_all [frameCalls]
  | cons e evs ih =>
    obtain ⟨np₁, h₁, h₂⟩ := Option.bind_eq_some.mp h
    have hnr' := fun e' he' => hnr e' (List.mem_cons_of_mem _ he')
    cases e with
    | receive msg =>
      cases h₁
      have hm : msg.type ≠ .reset := by simpa using hnr _ (List.mem_cons_self _ _)
      exact ih (hb.receive hm) pending hran bs (by simpa [Event.isCall] using hcalls) hnr' h₂
    | sendReset => cases pending <;> cases bs <;> simp [Event.isCall, frameCalls] at hcalls
    | sendInput b =>
      cases pending with
      | true => simp [Event.isCall] at hcalls
      | false =>
        cases bs with
        | nil => simp [Event.isCall, frameCalls] at hcalls
        | cons b' bs =>
          simp only [Event.isCall, List.filter_cons_of_pos, Bool.false_eq_true, ite_false, frameCalls,
            List.flatMap_cons, List.cons_append, List.singleton_append, List.nil_append, List.cons.injEq,
            Event.sendInput.injEq] at hcalls
          obtain ⟨rfl, hcalls⟩ := hcalls
          obtain rfl : ran = done.length := by simpa using hran
          cases h₁
          simpa using ih (hb.sendInput b) true (by simp) bs (by simpa [frameCalls] using hcalls) hnr' h₂
    | runFrame =>
      cases pending with
      | false => cases bs <;> simp [Event.isCall, frameCalls] at hcalls
      | true =>
        simp only [Event.isCall, List.filter_cons_of_pos, if_true] at hcalls
        exact ih (hb.runFrame h₁) false (by simpa using hran) bs (by simpa using (List.cons.inj hcalls).2) hnr' h₂

/-- A session that starts the game, with messages other than `Reset` delivered at any points. -/
theorem Batching.start {g : Game S} {np₀ : Netplay S} (bs : List UInt8) {evs : List Event} (hg : np₀.game = g)
    (h0 : np₀.toSend = []) (hr : ∀ msg ∈ np₀.toRecv, msg.type ≠ .reset)
    (hcalls : evs.filter Event.isCall = loopCalls bs) (hnr : ∀ e ∈ evs, e.deliversReset = false)
    (h : Netplay.run M np₀ evs = some np') :
    Batching np' ⟨.reset, 0, M.saveState g.bus⟩ bs bs.length := by
  induction evs generalizing np₀ with
  | nil => simp [loopCalls] at hcalls
  | cons e evs ih =>
    obtain ⟨np₁, h₁, h₂⟩ := Option.bind_eq_some.mp h
    have hnr' := fun e' he' => hnr e' (List.mem_cons_of_mem _ he')
    cases e with
    | receive msg =>
      cases h₁
      have hm : msg.type ≠ .reset := by simpa using hnr _ (List.mem_cons_self _ _)
      exact @ih { np₀ with toRecv := np₀.toRecv ++ [msg] } hg h0 (ne_reset_append hr hm)
        (by simpa [Event.isCall] using hcalls) hnr' h₂
    | sendReset =>
      cases (sendReset_eq M np₀).symm.trans h₁
      subst hg
      simpa using (Batching.sendReset hr h0).run false rfl bs
        (by simpa [Event.isCall, loopCalls] using hcalls) hnr' h₂
    | sendInput b => simp [Event.isCall, loopCalls] at hcalls
    | runFrame => simp [Event.isCall, loopCalls] at hcalls

end Steps

/-- Input batching while no `Reset` comes in: after `SendReset` and `n` frames, `toSend` holds a `Reset` of frame 0,
then the batches of the inputs, the `k`-th labelled `5k`; the rest is pending, and the game is at frame `n`. -/
theorem queued_batches_in_order (g : Game S) (bs : List UInt8) (evs : List Event) (np : Netplay S)
    (hcalls : evs.filter Event.isCall = loopCalls bs) (hnr : ∀ e ∈ evs, e.deliversReset = false)
    (h : run M (listen g) evs = some np) :
    (∃ payload, np.toSend = ⟨.reset, 0, payload⟩ :: batches bs) ∧
      np.inputBatch = ⟨(5 * (bs.length / 5)).toUInt32, bs.drop (5 * (bs.length / 5))⟩ ∧
      np.game.frame.toNat = bs.length := by
  have hb := Batching.start bs rfl rfl (by simp [listen]) hcalls hnr h
  exact ⟨⟨_, hb.toSend⟩, by rw [← hb.startFrame, ← hb.input], hb.frame⟩

/-- Six frames of a session that starts the game, with an `Input` taken in at the second frame and a `Bye` at the
third. -/
def sixFrames : List Event :=
  .sendReset :: .sendInput 1 :: .runFrame :: .sendInput 2 :: .receive ⟨.input, 0, [9]⟩ :: .runFrame ::
    .sendInput 3 :: .receive ⟨.bye, 0, []⟩ :: .runFrame :: frameCalls [4, 5, 6]

theorem queued_batches_in_order_tape :
    ∃ np, sixFrames.filter Event.isCall = loopCalls [1, 2, 3, 4, 5, 6] ∧
      (∀ e ∈ sixFrames, e.deliversReset = false) ∧
      run Console.tape (listen (Game.newGame [] .joy1)) sixFrames = some np ∧
      (∃ payload, np.toSend = ⟨.reset, 0, payload⟩ :: batches [1, 2, 3, 4, 5, 6]) ∧
      np.inputBatch = ⟨(5 * ([1, 2, 3, 4, 5, 6].length / 5)).toUInt32,
        [1, 2, 3, 4, 5, 6].drop (5 * ([1, 2, 3, 4, 5, 6].length / 5))⟩ ∧
      np.game.frame.toNat = [1, 2, 3, 4, 5, 6].length :=
  ⟨_, by decide, by decide, rfl,
    queued_batches_in_order Console.tape (Game.newGame [] .joy1) _ sixFrames _ (by decide) (by decide) rfl⟩

/-- A `Reset` from the peer, taken in by the first `RunFrame`, drops the input of frame 0 from the batch and labels the
next batch from its frame: the first `Input` message holds the inputs of frames 1 to 5 under frame 0. -/
theorem received_reset_drops_pending_input :
    (Event.sendReset :: .receive ⟨.reset, 0, []⟩ :: frameCalls [1, 2, 3, 4, 5, 6]).filter Event.isCall =
        loopCalls [1, 2, 3, 4, 5, 6] ∧
      ∃ np, run Console.tape (listen (Game.newGame [] .joy1))
          (.sendReset :: .receive ⟨.reset, 0, []⟩ :: frameCalls [1, 2, 3, 4, 5, 6]) = some np ∧
        np.toSend = [⟨.reset, 0, []⟩, ⟨.input, 0, [2, 3, 4, 5, 6]⟩] ∧
        batches [1, 2, 3, 4, 5, 6] = [⟨.input, 0, [1, 2, 3, 4, 5]⟩] :=
  ⟨by decide, _, rfl, rfl, rfl⟩

end Netplay

end Dendy
