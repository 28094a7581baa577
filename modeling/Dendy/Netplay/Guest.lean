import Dendy.Netplay.Peers
import Dendy.Netplay.FrameCheck

/-!
# The guest's session

The guest takes the host's `Reset` in with its first `RunFrame`, and from then on, frame after frame, sends its input
and runs the frame, while the host's messages arrive at any points. Over every such run, while the frame counter does
not wrap:

* every call returns (`guest_session_returns`): the guest is one frame further past its checkpoint than it has local
  bitmaps, at the top of the window of the frame check;
* that frame is on its bus (`guest_bus_one_frame_ahead`): the bus is the checkpoint's state played through the pending
  frames with one frame more among them;
* its batches carry its inputs in order, as the host's do, but only the first is labelled with the frame of its first
  input: `SendInput` labels the next batch one past the game's frame, and the guest's game is one frame ahead, so every
  later batch is labelled one frame late (`guest_batches_labelled_late`). The receiver, as the spec describes it,
  enqueues the bitmaps and does not read the label.
-/

namespace Dendy

namespace Netplay

variable {S : Type} (M : Console S)

/-! ### The guest's batches -/

/-- The guest's label of its `k`-th batch: `f` for the first, one past the frame of its first input for the others. -/
def guestLabel (f : UInt32) (k : Nat) : UInt32 := if k = 0 then f else (f.toNat + 5 * k + 1).toUInt32

/-- The batches of `bs` under the guest's labels. -/
def guestBatches (f : UInt32) (bs : List UInt8) : List Message :=
  (batches bs).mapIdx fun k m => { m with frame := guestLabel f k }

theorem guestBatches_snoc (f : UInt32) (xs : List UInt8) (b : UInt8) :
    guestBatches f (xs ++ [b]) = guestBatches f xs ++
      if (xs.length + 1) % 5 = 0 then
        [⟨.input, guestLabel f (xs.length / 5), (xs ++ [b]).drop (5 * (xs.length / 5))⟩]
      else [] := by
  have hlen : (batches xs).length = xs.length / 5 := by simp [batches]
  rw [guestBatches, batches_snoc, List.mapIdx_append, hlen]
  split_ifs <;> simp [guestBatches]

/-- The guest's batching `ran` frames after the frame that took in a `Reset` of frame `f`, the inputs `done` sent. -/
structure GuestBatching (np : Netplay S) (f : UInt32) (done : List UInt8) (ran : Nat) : Prop where
  frame : np.game.frame.toNat = f.toNat + 1 + ran
  startFrame : np.inputBatch.startFrame = guestLabel f (done.length / 5)
  input : np.inputBatch.input = done.drop (5 * (done.length / 5))
  toSend : np.toSend = guestBatches f done
  toRecv : ∀ msg ∈ np.toRecv, msg.type ≠ .reset

section Steps

variable {M} {np np' : Netplay S} {f : UInt32} {done : List UInt8} {ran : Nat}

theorem GuestBatching.receive (hq : GuestBatching np f done ran) {msg : Message} (hm : msg.type ≠ .reset) :
    GuestBatching { np with toRecv := np.toRecv ++ [msg] } f done ran :=
  ⟨hq.frame, hq.startFrame, hq.input, hq.toSend,
    fun m h => (List.mem_append.mp h).elim (hq.toRecv m) fun h => List.mem_singleton.mp h ▸ hm⟩

theorem GuestBatching.sendInput (hq : GuestBatching np f done done.length) (b : UInt8) :
    GuestBatching (Netplay.sendInput np b) f (done ++ [b]) done.length := by
  have hlen : (np.inputBatch.add b).len = done.length % 5 + 1 := by
    simp only [InputBatch.len, InputBatch.add, hq.input, List.length_append, List.length_drop,
      List.length_singleton]
    omega
  have hdrop : np.inputBatch.input ++ [b] = (done ++ [b]).drop (5 * (done.length / 5)) := by
    rw [hq.input, List.drop_append_of_le_length (by omega)]
  unfold Netplay.sendInput
  dsimp only
  split_ifs with hfull
  · rw [hlen, inputBatchSize] at hfull
    have hd : (done ++ [b]).length / 5 = done.length / 5 + 1 := by
      simp only [List.length_append, List.length_singleton]; omega
    refine ⟨by simpa using hq.frame, ?_, ?_, ?_, hq.toRecv⟩
    · rw [hd, guestLabel, if_neg (Nat.succ_ne_zero _), UInt32.eq_iff_toNat_eq, UInt32.toNat_add_one,
        Nat.toUInt32_toNat, Game.frameNumber, Game.handleLocalInput_frame, hq.frame]
      omega
    · rw [hd]
      exact (List.drop_eq_nil_of_le (by simp; omega)).symm
    · show np.toSend ++ [⟨.input, np.inputBatch.startFrame, np.inputBatch.input ++ [b]⟩] = _
      rw [hq.toSend, guestBatches_snoc, if_pos (by omega), hq.startFrame, hdrop]
  · rw [hlen, inputBatchSize] at hfull
    have hd : (done ++ [b]).length / 5 = done.length / 5 := by simp; omega
    refine ⟨by simpa using hq.frame, ?_, ?_, ?_, hq.toRecv⟩
    · show np.inputBatch.startFrame = _
      rw [hd, hq.startFrame]
    · show np.inputBatch.input ++ [b] = _
      rw [hd, hdrop]
    rw [hq.toSend, guestBatches_snoc, if_neg (by omega), List.append_nil]

theorem GuestBatching.runFrame (hq : GuestBatching np f done ran) (h : Netplay.runFrame M np = some np') :
    GuestBatching np' f done (ran + 1) := by
  obtain ⟨np₁, game, h₁, hg, rfl⟩ := (runFrame_eq_some M).mp h
  obtain ⟨game₁, rfl, hf⟩ := pollMessage_eq_some M hq.toRecv h₁
  refine ⟨?_, hq.startFrame, hq.input, hq.toSend, fun m hm => hq.toRecv m (List.mem_of_mem_tail hm)⟩
  show game.frame.toNat = _
  rw [Game.runFrame_frame M hg, hf, hq.frame]
  rfl

end Steps

/-! ### The guest's loop -/

/-- The guest's loop after the `Reset`: every call returns, keeping `Ahead`, `AheadBus` and the batching. `p` is the
input sent for the frame still to run. -/
theorem guest_loop {np : Netplay S} {p : Option UInt8} {g : Game S} {f : UInt32} {done : List UInt8} {ran : Nat}
    (ha : Game.Ahead M g) (hb : Game.AheadBus M g) (hg : np.game = p.elim g g.handleLocalInput)
    (hq : GuestBatching np f done ran) (hran : ran + p.isSome.toNat = done.length) (bs : List UInt8)
    {evs : List Event} (hcalls : evs.filter Event.isCall = p.elim [] (fun _ => [.runFrame]) ++ frameCalls bs)
    (hnr : ∀ e ∈ evs, e.deliversReset = false) (hov : g.frame.toNat + p.isSome.toNat + bs.length < 2 ^ 32) :
    ∃ np', run M np evs = some np' ∧ Game.Ahead M np'.game ∧ Game.AheadBus M np'.game ∧
      GuestBatching np' f (done ++ bs) (done ++ bs).length := by
  induction evs generalizing np p g done ran bs with
  | nil =>
    cases p with
    | none =>
      cases bs with
      | nil =>
        obtain rfl : ran = done.length := by simpa using hran
        exact ⟨np, rfl, hg ▸ ha, hg ▸ hb, by simpa using hq⟩
      | cons b bs => simp [frameCalls] at hcalls
    | some b => simp at hcalls
  | cons e evs ih =>
    have hnr' := fun e' he' => hnr e' (List.mem_cons_of_mem _ he')
    cases e with
    | receive msg =>
      have hm : msg.type ≠ .reset := by simpa using hnr _ (List.mem_cons_self _ _)
      exact @ih { np with toRecv := np.toRecv ++ [msg] } p g done ran ha hb hg (hq.receive hm) hran bs
        (by simpa [Event.isCall] using hcalls) hnr' hov
    | sendReset => cases p <;> cases bs <;> simp [Event.isCall, frameCalls] at hcalls
    | sendInput b =>
      cases p with
      | some _ => simp [Event.isCall] at hcalls
      | none =>
        cases bs with
        | nil => simp [Event.isCall, frameCalls] at hcalls
        | cons b' bs =>
          simp only [Event.isCall, List.filter_cons_of_pos, Option.elim_none, frameCalls, List.flatMap_cons,
            List.nil_append, List.cons_append, List.singleton_append, List.cons.injEq, Event.sendInput.injEq] at hcalls
          obtain ⟨rfl, hcalls⟩ := hcalls
          obtain rfl : ran = done.length := by simpa using hran
          simpa using @ih (sendInput np b) (some b) g (done ++ [b]) done.length ha hb
            (by rw [sendInput_game, hg]; rfl) (hq.sendInput b) (by simp) bs (by simpa [frameCalls] using hcalls)
            hnr' (by simp only [Option.isSome_none, Option.isSome_some, Bool.toNat_false, Bool.toNat_true,
              List.length_cons] at hov ⊢; omega)
    | runFrame =>
      cases p with
      | none => cases bs <;> simp [Event.isCall, frameCalls] at hcalls
      | some b =>
        -- the frame is a round of the game: the input, the bitmaps of the message taken in, then the frame
        obtain ⟨np₁, h₁⟩ := Option.isSome_iff_exists.mp (pollMessage_isSome M hq.toRecv)
        obtain ⟨handled, hq₁, hex, -, -⟩ := pollMessage_of_ne_reset M hq.toRecv h₁
        simp only [Option.isSome_some, Bool.toNat_true] at hov hran
        obtain ⟨g', hround, ha', hf'⟩ := ha.round ⟨[], b, inputsOf handled⟩ (by omega)
        have hb' := Game.AheadBus.round ha hb _ hround
        have hrun : Game.runFrame M np₁.game = some g' := by
          rw [Game.Round.ops, Game.Round.inputs, List.map_nil, List.nil_append, List.cons_append, Game.exec_cons,
            Game.apply, Option.some_bind, Game.exec_append, ← show np.game = g.handleLocalInput b from hg, hex,
            Option.some_bind, Game.exec_cons, Game.apply] at hround
          simpa using hround
        have hnp : runFrame M np = some { np₁ with game := g' } := (runFrame_eq_some M).mpr ⟨np₁, g', h₁, hrun, rfl⟩
        obtain ⟨np', h', hnext⟩ := @ih { np₁ with game := g' } none g' done (ran + 1) ha' hb' rfl (hq.runFrame hnp)
          (by simpa using hran) bs (by simpa [Event.isCall] using hcalls) hnr'
          (by simp only [Option.isSome_none, Bool.toNat_false]; omega)
        refine ⟨np', ?_, hnext⟩
        show (runFrame M np).bind (fun np => run M np evs) = some np'
        rwa [hnp, Option.some_bind]

/-! ### The guest's session -/

theorem guest_session (g : Game S) (s₀ : S) (f : UInt32) (pre evs : List Event) (rest : List Message)
    (bs : List UInt8) (hpre : ∀ e ∈ pre, e.isCall = false)
    (hm : receivedOf pre = ⟨.reset, f, M.saveState s₀⟩ :: rest) (hrest : ∀ m ∈ rest, m.type ≠ .reset)
    (hcalls : evs.filter Event.isCall = frameCalls bs) (hnr : ∀ e ∈ evs, e.deliversReset = false)
    (hov : f.toNat + bs.length + 1 < 2 ^ 32) :
    ∃ np, run M (listen g) (pre ++ .runFrame :: evs) = some np ∧ Game.Ahead M np.game ∧ Game.AheadBus M np.game ∧
      GuestBatching np f bs bs.length := by
  obtain ⟨g₁, h₁, ha₁, hb₁, hf₁⟩ := Game.Ahead.start g (rfl : (⟨f, M.saveState s₀⟩ : Checkpoint).state = _)
    (by show f.toNat + 1 < 2 ^ 32; omega)
  obtain ⟨g₀, h₀, hrun₁⟩ := Option.bind_eq_some.mp h₁
  have hstart : runFrame M { listen g with toRecv := (listen g).toRecv ++ receivedOf pre } =
      some { game := g₁, toRecv := rest, toSend := [], inputBatch := ⟨f, []⟩ } := by
    refine (runFrame_eq_some M).mpr ⟨{ game := g₀, toRecv := rest, toSend := [], inputBatch := ⟨f, []⟩ }, g₁, ?_,
      hrun₁, rfl⟩
    simp only [pollMessage, listen, List.nil_append, hm, handleMessage, resetInputBatch, h₀]
    rfl
  obtain ⟨np, h, hnext⟩ := @guest_loop _ M { game := g₁, toRecv := rest, toSend := [], inputBatch := ⟨f, []⟩ } none
    g₁ f [] 0 ha₁ hb₁ rfl ⟨hf₁, rfl, rfl, rfl, hrest⟩ rfl bs evs (by simpa using hcalls) hnr
    (by simp only [Option.isSome_none, Bool.toNat_false]; rw [show g₁.frame.toNat = f.toNat + 1 from hf₁]; omega)
  refine ⟨np, ?_, hnext⟩
  rwa [List.append_cons, run_append, run_append, run_receives M _ hpre, Option.some_bind, run_singleton, step, hstart,
    Option.some_bind]

/-- The guest never panics: every call returns, and the game ends one frame further past its checkpoint than it has
local bitmaps. -/
theorem guest_session_returns (g : Game S) (s₀ : S) (f : UInt32) (pre evs : List Event) (rest : List Message)
    (bs : List UInt8) (hpre : ∀ e ∈ pre, e.isCall = false)
    (hm : receivedOf pre = ⟨.reset, f, M.saveState s₀⟩ :: rest) (hrest : ∀ m ∈ rest, m.type ≠ .reset)
    (hcalls : evs.filter Event.isCall = frameCalls bs) (hnr : ∀ e ∈ evs, e.deliversReset = false)
    (hov : f.toNat + bs.length + 1 < 2 ^ 32) :
    ∃ np, run M (listen g) (pre ++ .runFrame :: evs) = some np ∧
      np.game.frame.toNat = np.game.cp.frame.toNat + np.game.localInput.len + 1 :=
  let ⟨np, h, ha, _, _⟩ := guest_session M g s₀ f pre evs rest bs hpre hm hrest hcalls hnr hov
  ⟨np, h, ha.frame⟩

theorem guest_session_returns_tape :
    (∀ e ∈ [Event.receive ⟨.reset, 0, []⟩], e.isCall = false) ∧
      receivedOf [.receive ⟨.reset, 0, []⟩] = ⟨.reset, 0, Console.tape.saveState []⟩ :: [] ∧
      (∀ m ∈ ([] : List Message), m.type ≠ .reset) ∧
      (Event.receive ⟨.input, 0, [1, 2, 3, 4, 5]⟩ :: frameCalls [6, 7]).filter Event.isCall = frameCalls [6, 7] ∧
      (∀ e ∈ Event.receive ⟨.input, 0, [1, 2, 3, 4, 5]⟩ :: frameCalls [6, 7], e.deliversReset = false) ∧
      ∃ np, run Console.tape (listen (Game.newGame [] .joy2))
          ([.receive ⟨.reset, 0, []⟩] ++ .runFrame :: .receive ⟨.input, 0, [1, 2, 3, 4, 5]⟩ :: frameCalls [6, 7]) =
          some np ∧
        np.game.frame.toNat = np.game.cp.frame.toNat + np.game.localInput.len + 1 :=
  ⟨by decide, rfl, by simp, by decide, by decide,
    guest_session_returns Console.tape (Game.newGame [] .joy2) [] 0 [.receive ⟨.reset, 0, []⟩]
      (.receive ⟨.input, 0, [1, 2, 3, 4, 5]⟩ :: frameCalls [6, 7]) [] [6, 7] (by decide) rfl (by simp) (by decide)
      (by decide) (by decide)⟩

/-- The guest's bus is the checkpoint's state played through its pending frames with one frame more among them. -/
theorem guest_bus_one_frame_ahead (g : Game S) (s₀ : S) (f : UInt32) (pre evs : List Event) (rest : List Message)
    (bs : List UInt8) (hpre : ∀ e ∈ pre, e.isCall = false)
    (hm : receivedOf pre = ⟨.reset, f, M.saveState s₀⟩ :: rest) (hrest : ∀ m ∈ rest, m.type ≠ .reset)
    (hcalls : evs.filter Event.isCall = frameCalls bs) (hnr : ∀ e ∈ evs, e.deliversReset = false)
    (hov : f.toNat + bs.length + 1 < 2 ^ 32) :
    ∃ np, run M (listen g) (pre ++ .runFrame :: evs) = some np ∧ ∃ s k e, np.game.cp.state = M.saveState s ∧
      k ≤ np.game.localInput.len ∧ np.game.bus = M.lockstep np.game.localJoy s
        ((Game.pendingFrames np.game).take k ++ e :: (Game.pendingFrames np.game).drop k) :=
  let ⟨np, h, _, hb, _⟩ := guest_session M g s₀ f pre evs rest bs hpre hm hrest hcalls hnr hov
  ⟨np, h, hb⟩

theorem guest_bus_one_frame_ahead_tape :
    ∃ np, run Console.tape (listen (Game.newGame [] .joy2))
        ([.receive ⟨.reset, 0, []⟩] ++ .runFrame :: frameCalls [6]) = some np ∧
        (∃ s k e, np.game.cp.state = Console.tape.saveState s ∧ k ≤ np.game.localInput.len ∧
          np.game.bus = Console.tape.lockstep np.game.localJoy s
            ((Game.pendingFrames np.game).take k ++ e :: (Game.pendingFrames np.game).drop k)) ∧
        np.game.cp.state = [] ∧ Game.pendingFrames np.game = [(6, 0)] ∧ np.game.bus = [0, 0, 0, 6] := by
  obtain ⟨np, h, hb⟩ := guest_bus_one_frame_ahead Console.tape (Game.newGame [] .joy2) [] 0
    [.receive ⟨.reset, 0, []⟩] (frameCalls [6]) [] [6] (by decide) rfl (by simp) (by decide) (by decide) (by decide)
  obtain rfl : np = _ := Option.some.inj (h.symm.trans rfl)
  exact ⟨_, h, hb, rfl, rfl, rfl⟩

/-- The guest's batches carry its inputs in order, but every batch after the first is labelled one frame late. -/
theorem guest_batches_labelled_late (g : Game S) (s₀ : S) (f : UInt32) (pre evs : List Event) (rest : List Message)
    (bs : List UInt8) (hpre : ∀ e ∈ pre, e.isCall = false)
    (hm : receivedOf pre = ⟨.reset, f, M.saveState s₀⟩ :: rest) (hrest : ∀ m ∈ rest, m.type ≠ .reset)
    (hcalls : evs.filter Event.isCall = frameCalls bs) (hnr : ∀ e ∈ evs, e.deliversReset = false)
    (hov : f.toNat + bs.length + 1 < 2 ^ 32) :
    ∃ np, run M (listen g) (pre ++ .runFrame :: evs) = some np ∧ np.toSend = guestBatches f bs ∧
      np.inputBatch = ⟨guestLabel f (bs.length / 5), bs.drop (5 * (bs.length / 5))⟩ := by
  obtain ⟨np, h, -, -, hq⟩ := guest_session M g s₀ f pre evs rest bs hpre hm hrest hcalls hnr hov
  exact ⟨np, h, hq.toSend, by rw [← hq.startFrame, ← hq.input]⟩

theorem guest_batches_labelled_late_tape :
    ∃ np, run Console.tape (listen (Game.newGame [] .joy2))
        ([.receive ⟨.reset, 0, []⟩] ++ .runFrame :: frameCalls [1, 2, 3, 4, 5, 6, 7, 8, 9, 10, 11]) = some np ∧
      np.toSend = guestBatches 0 [1, 2, 3, 4, 5, 6, 7, 8, 9, 10, 11] ∧
      np.inputBatch = ⟨guestLabel 0 (11 / 5), [1, 2, 3, 4, 5, 6, 7, 8, 9, 10, 11].drop (5 * (11 / 5))⟩ ∧
      np.toSend = [⟨.input, 0, [1, 2, 3, 4, 5]⟩, ⟨.input, 6, [6, 7, 8, 9, 10]⟩] ∧ np.inputBatch = ⟨11, [11]⟩ := by
  obtain ⟨np, h, hs, hi⟩ := guest_batches_labelled_late Console.tape (Game.newGame [] .joy2) [] 0
    [.receive ⟨.reset, 0, []⟩] (frameCalls [1, 2, 3, 4, 5, 6, 7, 8, 9, 10, 11]) [] [1, 2, 3, 4, 5, 6, 7, 8, 9, 10, 11]
    (by decide) rfl (by simp) (by decide) (by decide) (by decide)
  exact ⟨np, h, hs, hi, hs.trans rfl, hi.trans rfl⟩

end Netplay

end Dendy
