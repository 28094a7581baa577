import Dendy.Netplay.Session
import Dendy.Netplay.Lockstep

/-!
# Two peers

The two ends of a connection, each a `Netplay` session with its own game. The writer of each sends its `toSend` in
order, and the reader of the other puts what arrives on its `toRecv`. The host starts the game with `SendReset`; the
guest takes the `Reset` in with its first `RunFrame`. The connection loses, duplicates and reorders nothing but
delays each message by any amount, so what the reader of one peer has delivered is a prefix of what the other has
queued. Nothing else ties the two runs together: the statements below hold for every interleaving of the two peers'
events.

The guest starts from the `Reset`'s payload as the host queued it. In the source that payload is the host's
checkpoint slice, which the host rewrites only when it saves in a reconciliation; that needs input from the guest,
which the guest sends only after the `Reset` has reached it.

A session keeps its game in step with what it sent and what it took in (`Follows`). The game is the one it started
with after the calls of the bitmaps it sent and of the `Input` messages it took off `toRecv`; and the bitmaps of the
`Input` messages it queued, with the pending batch, are the bitmaps it sent. With `Synced` on each side, the two
checkpoints agree at every frame both peers have confirmed (`peers_refine_lockstep`).

This is the protocol of one game: a later `SendReset` starts another, and inputs of the old one still in flight
would then be taken as inputs of the new one. Both consoles obey the `Console` law, that a load restores the whole
saved state; the repository's AxROM cartridge breaks it, since its `SaveState` omits CHR RAM
(`Mapper007.loadState_keeps_chr_written_after_save`), so these results hold for consoles whose save is complete.
-/

namespace Dendy

namespace Netplay

variable {S : Type} (M : Console S)

/-- The input bitmaps the `Input` messages of `ms` carry, in order. -/
def inputsOf (ms : List Message) : List UInt8 := ms.flatMap fun m => if m.type = .input then m.payload else []

/-- The bitmaps handed to `SendInput` along the events. -/
def sentOf : List Event → List UInt8
  | [] => []
  | .sendInput b :: evs => b :: sentOf evs
  | _ :: evs => sentOf evs

/-- The messages the reader delivers along the events. -/
def receivedOf : List Event → List Message
  | [] => []
  | .receive msg :: evs => msg :: receivedOf evs
  | _ :: evs => receivedOf evs

/-! ### Streams -/

@[simp] theorem inputsOf_append (ms ms' : List Message) : inputsOf (ms ++ ms') = inputsOf ms ++ inputsOf ms' :=
  List.flatMap_append _ _ _

theorem inputsOf_mono {ms ms' : List Message} (h : ms <+: ms') : inputsOf ms <+: inputsOf ms' := by
  obtain ⟨t, rfl⟩ := h
  rw [inputsOf_append]
  exact List.prefix_append _ _

@[simp] theorem sentOf_append (evs evs' : List Event) : sentOf (evs ++ evs') = sentOf evs ++ sentOf evs' := by
  induction evs with
  | nil => rfl
  | cons e evs ih => cases e <;> simp [sentOf, ih]

@[simp] theorem receivedOf_append (evs evs' : List Event) :
    receivedOf (evs ++ evs') = receivedOf evs ++ receivedOf evs' := by
  induction evs with
  | nil => rfl
  | cons e evs ih => cases e <;> simp [receivedOf, ih]

@[simp] theorem localsOf_append (ops ops' : List Game.Op) :
    Game.localsOf (ops ++ ops') = Game.localsOf ops ++ Game.localsOf ops' := by
  induction ops with
  | nil => rfl
  | cons o ops ih => cases o <;> simp [Game.localsOf, ih]

@[simp] theorem remotesOf_append (ops ops' : List Game.Op) :
    Game.remotesOf (ops ++ ops') = Game.remotesOf ops ++ Game.remotesOf ops' := by
  induction ops with
  | nil => rfl
  | cons o ops ih => cases o <;> simp [Game.remotesOf, ih]

@[simp] theorem localsOf_handleRemoteInputs (bs : List UInt8) :
    Game.localsOf (bs.map .handleRemoteInput) = [] := by
  induction bs with
  | nil => rfl
  | cons b bs ih => simp [Game.localsOf, ih]

@[simp] theorem remotesOf_handleRemoteInputs (bs : List UInt8) :
    Game.remotesOf (bs.map .handleRemoteInput) = bs := by
  induction bs with
  | nil => rfl
  | cons b bs ih => simp [Game.remotesOf, ih]

/-! ### One event -/

/-- `AddRemoteInput` of a batch is the game's calls of its bitmaps, in order. -/
theorem exec_addRemoteInput (g : Game S) (batch : InputBatch) :
    Game.exec M g (batch.input.map .handleRemoteInput) = some (addRemoteInput g batch) := by
  obtain ⟨_, bs⟩ := batch
  induction bs generalizing g with
  | nil => rfl
  | cons b bs ih => exact ih _

/-- A message other than `Reset` hands the game the bitmaps it carries, if any. -/
theorem handleMessage_eq_addRemoteInput (np : Netplay S) {msg : Message} (hm : msg.type ≠ .reset) :
    handleMessage M np msg = some ({ np with game := addRemoteInput np.game ⟨msg.frame, inputsOf [msg]⟩ }, true) := by
  obtain ⟨t, f, p⟩ := msg
  cases t
  · contradiction
  · simp [handleMessage, inputsOf]
  · simp [handleMessage, inputsOf, addRemoteInput]

theorem handleMessage_toSend {np : Netplay S} {msg : Message} {r : Netplay S × Bool}
    (h : handleMessage M np msg = some r) : r.1.toSend = np.toSend := by
  unfold handleMessage at h
  split at h
  · obtain ⟨_, -, ⟨⟩⟩ := Option.bind_eq_some.mp h
    rfl
  all_goals cases h; rfl

theorem pollMessage_toSend {np np' : Netplay S} (h : pollMessage M np = some np') : np'.toSend = np.toSend := by
  unfold pollMessage at h
  split at h
  · obtain ⟨r, hr, rfl⟩ := Option.map_eq_some'.mp h
    exact (handleMessage_toSend M hr :)
  · cases h; rfl

/-- `pollMessage` with no `Reset` waiting: the messages it takes off `toRecv` hand their bitmaps to the game. -/
theorem pollMessage_of_ne_reset {np np' : Netplay S} (hr : ∀ m ∈ np.toRecv, m.type ≠ .reset)
    (h : pollMessage M np = some np') :
    ∃ handled, handled ++ np'.toRecv = np.toRecv ∧
      Game.exec M np.game ((inputsOf handled).map .handleRemoteInput) = some np'.game ∧
      np'.toSend = np.toSend ∧ np'.inputBatch = np.inputBatch := by
  unfold pollMessage at h
  split at h
  · rename_i msg toRecv hq
    rw [handleMessage_eq_addRemoteInput M _ (hr msg (by simp [hq]))] at h
    cases h
    exact ⟨[msg], hq.symm, exec_addRemoteInput M np.game ⟨msg.frame, _⟩, rfl, rfl⟩
  · cases h
    exact ⟨[], rfl, rfl, rfl, rfl⟩

theorem pollMessage_isSome {np : Netplay S} (hr : ∀ m ∈ np.toRecv, m.type ≠ .reset) : (pollMessage M np).isSome := by
  unfold pollMessage
  split
  · rename_i msg toRecv hq
    rw [handleMessage_eq_addRemoteInput M _ (hr msg (by simp [hq]))]
    rfl
  · rfl

@[simp] theorem sendInput_game (np : Netplay S) (b : UInt8) :
    (sendInput np b).game = np.game.handleLocalInput b := by
  dsimp only [sendInput]; split_ifs <;> rfl

@[simp] theorem sendInput_toRecv (np : Netplay S) (b : UInt8) : (sendInput np b).toRecv = np.toRecv := by
  dsimp only [sendInput]; split_ifs <;> rfl

/-- `SendInput` queues `Input` messages only, which with the pending batch hold the old pending bitmaps and `b`. -/
theorem sendInput_toSend (np : Netplay S) (b : UInt8) :
    ∃ ms, (sendInput np b).toSend = np.toSend ++ ms ∧ (∀ m ∈ ms, m.type = .input) ∧
      inputsOf ms ++ (sendInput np b).inputBatch.input = np.inputBatch.input ++ [b] := by
  dsimp only [sendInput]
  split_ifs
  · exact ⟨[_], rfl, by simp, by simp [inputsOf, InputBatch.add]⟩
  · exact ⟨[], by simp, by simp, by simp [inputsOf, InputBatch.add]⟩

theorem runFrame_eq_some {np np' : Netplay S} :
    runFrame M np = some np' ↔
      ∃ np₁ game, pollMessage M np = some np₁ ∧ Game.runFrame M np₁.game = some game ∧ np' = { np₁ with game } := by
  simp only [runFrame, Option.bind_eq_bind, Option.bind_eq_some, Option.some.injEq]
  exact ⟨fun ⟨np₁, h₁, game, h₂, h₃⟩ => ⟨np₁, game, h₁, h₂, h₃.symm⟩,
    fun ⟨np₁, game, h₁, h₂, h₃⟩ => ⟨np₁, h₁, game, h₂, h₃.symm⟩⟩

/-! ### Runs -/

theorem run_append (np : Netplay S) (evs evs' : List Event) :
    run M np (evs ++ evs') = (run M np evs).bind fun np => run M np evs' :=
  List.foldlM_append _ _ _ _

@[simp] theorem run_singleton (np : Netplay S) (e : Event) : run M np [e] = step M np e := bind_pure _

/-- Deliveries alone only fill `toRecv`. -/
theorem run_receives (np : Netplay S) {evs : List Event} (h : ∀ e ∈ evs, e.isCall = false) :
    run M np evs = some { np with toRecv := np.toRecv ++ receivedOf evs } := by
  induction evs generalizing np with
  | nil => simp [run, receivedOf]
  | cons e evs ih =>
    cases e with
    | receive msg =>
      show run M { np with toRecv := np.toRecv ++ [msg] } evs = _
      rw [ih _ fun e he => h e (List.mem_cons_of_mem _ he)]
      simp [receivedOf]
    | _ => simp [Event.isCall] at h

/-- Without `SendReset`, a session queues `Input` messages only, whatever it receives. -/
theorem run_toSend {np np' : Netplay S} {evs : List Event} (hr : ∀ e ∈ evs, e ≠ .sendReset)
    (h : run M np evs = some np') : ∃ ms, np'.toSend = np.toSend ++ ms ∧ ∀ m ∈ ms, m.type = .input := by
  induction evs generalizing np with
  | nil => cases h; exact ⟨[], by simp, by simp⟩
  | cons e evs ih =>
    obtain ⟨np₁, h₁, h₂⟩ := Option.bind_eq_some.mp h
    obtain ⟨ms, hms, hin⟩ := ih (fun e he => hr e (List.mem_cons_of_mem _ he)) h₂
    have step_toSend : ∃ ms₁, np₁.toSend = np.toSend ++ ms₁ ∧ ∀ m ∈ ms₁, m.type = .input := by
      cases e with
      | sendReset => exact absurd rfl (hr _ (List.mem_cons_self _ _))
      | sendInput b =>
        cases h₁
        obtain ⟨ms₁, h, hin, -⟩ := sendInput_toSend np b
        exact ⟨ms₁, h, hin⟩
      | runFrame =>
        obtain ⟨np₂, game, hp, -, rfl⟩ := (runFrame_eq_some M).mp h₁
        exact ⟨[], by rw [List.append_nil]; exact (pollMessage_toSend M hp :), by simp⟩
      | receive msg => cases h₁; exact ⟨[], by simp, by simp⟩
    obtain ⟨ms₁, hms₁, hin₁⟩ := step_toSend
    refine ⟨ms₁ ++ ms, by rw [hms, hms₁, List.append_assoc], fun m hm => ?_⟩
    exact (List.mem_append.mp hm).elim (hin₁ m) (hin m)

/-! ### A session in step with its game -/

/-- The session is in step with its game started at `g₀`: the game has taken the bitmaps `sent` and those of the
messages taken off `rcv`, and `toSend` after `head` carries the bitmaps `sent`. -/
structure Follows (np : Netplay S) (g₀ : Game S) (head : List Message) (sent : List UInt8) (rcv : List Message) :
    Prop where
  game : ∃ ops handled, Game.exec M g₀ ops = some np.game ∧ Game.localsOf ops = sent ∧
    Game.remotesOf ops = inputsOf handled ∧ handled ++ np.toRecv = rcv
  toSend : ∃ ms, np.toSend = head ++ ms ∧ inputsOf ms ++ np.inputBatch.input = sent
  toRecv : ∀ m ∈ np.toRecv, m.type ≠ .reset

section Steps

variable {M} {np np' : Netplay S} {g₀ : Game S} {head : List Message} {sent : List UInt8} {rcv : List Message}

theorem Follows.receive (hf : Follows M np g₀ head sent rcv) {msg : Message} (hm : msg.type ≠ .reset) :
    Follows M { np with toRecv := np.toRecv ++ [msg] } g₀ head sent (rcv ++ [msg]) := by
  obtain ⟨ops, handled, hg, hl, hr, hq⟩ := hf.game
  refine ⟨⟨ops, handled, hg, hl, hr, by rw [← hq, List.append_assoc]⟩, hf.toSend, fun m h => ?_⟩
  exact (List.mem_append.mp h).elim (hf.toRecv m) fun h => List.mem_singleton.mp h ▸ hm

theorem Follows.sendInput (hf : Follows M np g₀ head sent rcv) (b : UInt8) :
    Follows M (Netplay.sendInput np b) g₀ head (sent ++ [b]) rcv := by
  obtain ⟨ops, handled, hg, hl, hr, hq⟩ := hf.game
  obtain ⟨ms, hms, hin⟩ := hf.toSend
  obtain ⟨ms₁, hms₁, -, hin₁⟩ := sendInput_toSend np b
  refine ⟨⟨ops ++ [.handleLocalInput b], handled, ?_, by simp [hl, Game.localsOf], by simp [hr, Game.remotesOf],
    by rw [sendInput_toRecv, hq]⟩, ⟨ms ++ ms₁, by rw [hms₁, hms, List.append_assoc], ?_⟩,
    by rw [sendInput_toRecv]; exact hf.toRecv⟩
  · rw [Game.exec_append, hg, sendInput_game]
    rfl
  · rw [inputsOf_append, List.append_assoc, hin₁, ← List.append_assoc, hin]

theorem Follows.runFrame (hf : Follows M np g₀ head sent rcv) (h : Netplay.runFrame M np = some np') :
    Follows M np' g₀ head sent rcv := by
  obtain ⟨np₁, game, h₁, hgame, rfl⟩ := (runFrame_eq_some M).mp h
  obtain ⟨handled₁, hq₁, hg₁, hs₁, hb₁⟩ := pollMessage_of_ne_reset M hf.toRecv h₁
  obtain ⟨ops, handled, hg, hl, hr, hq⟩ := hf.game
  obtain ⟨ms, hms, hin⟩ := hf.toSend
  refine ⟨⟨ops ++ (inputsOf handled₁).map .handleRemoteInput ++ [.runFrame], handled ++ handled₁, ?_,
    by simp [hl, Game.localsOf], by simp [hr, Game.remotesOf], by rw [List.append_assoc, hq₁, hq]⟩,
    ⟨ms, by rw [← hms, hs₁], by rw [← hin, hb₁]⟩, fun m hm => hf.toRecv m (hq₁ ▸ List.mem_append_right _ hm)⟩
  rw [Game.exec_append, Game.exec_append, hg, Option.some_bind, hg₁, Option.some_bind, Game.exec_cons, Game.apply,
    hgame]
  rfl

/-- A run with no `SendReset` and no `Reset` delivered keeps the session in step with its game. -/
theorem Follows.run (hf : Follows M np g₀ head sent rcv) {evs : List Event} (hr : ∀ e ∈ evs, e ≠ .sendReset)
    (hd : ∀ m ∈ receivedOf evs, m.type ≠ .reset) (h : Netplay.run M np evs = some np') :
    Follows M np' g₀ head (sent ++ sentOf evs) (rcv ++ receivedOf evs) := by
  induction evs generalizing np sent rcv with
  | nil => cases h; simpa [sentOf, receivedOf] using hf
  | cons e evs ih =>
    obtain ⟨np₁, h₁, h₂⟩ := Option.bind_eq_some.mp h
    have hr' := fun e he => hr e (List.mem_cons_of_mem _ he)
    cases e with
    | sendReset => exact absurd rfl (hr _ (List.mem_cons_self _ _))
    | sendInput b =>
      cases h₁
      simpa [sentOf, receivedOf] using ih (hf.sendInput b) hr' (by simpa [receivedOf] using hd) h₂
    | runFrame => simpa [sentOf, receivedOf] using ih (hf.runFrame h₁) hr' (by simpa [receivedOf] using hd) h₂
    | receive msg =>
      cases h₁
      have hm := hd msg (List.mem_cons_self _ _)
      simpa [sentOf, receivedOf] using ih (hf.receive hm) hr' (fun m h => hd m (List.mem_cons_of_mem _ h)) h₂

end Steps

/-! ### How each peer starts -/

/-- The host: deliveries, then `SendReset`, which starts the game with `Init(nil)` and queues its `Reset`. -/
theorem Follows.host (g : Game S) {pre : List Event} {np : Netplay S} (hpre : ∀ e ∈ pre, e.isCall = false)
    (hd : ∀ m ∈ receivedOf pre, m.type ≠ .reset) (h : Netplay.run M (listen g) (pre ++ [.sendReset]) = some np) :
    ∃ g₀, Game.init M g none = some g₀ ∧ np.toSend = [⟨.reset, 0, M.saveState g.bus⟩] ∧
      Follows M np g₀ [⟨.reset, 0, M.saveState g.bus⟩] [] (receivedOf pre) := by
  rw [run_append, run_receives M _ hpre, Option.some_bind, run_singleton, step, sendReset_eq] at h
  cases h
  exact ⟨_, rfl, rfl, ⟨[], [], rfl, rfl, rfl, rfl⟩, ⟨[], rfl, rfl⟩, hd⟩

/-- The guest: deliveries led by the host's `Reset`, then `RunFrame`, which starts the game with `Init` of the
`Reset`'s checkpoint and plays a frame. -/
theorem Follows.guest (g : Game S) {pre : List Event} {np : Netplay S} {m₀ : Message} {rest : List Message}
    (hpre : ∀ e ∈ pre, e.isCall = false) (hm : receivedOf pre = m₀ :: rest) (h₀ : m₀.type = .reset)
    (hd : ∀ m ∈ rest, m.type ≠ .reset) (h : Netplay.run M (listen g) (pre ++ [.runFrame]) = some np) :
    ∃ g₀, Game.init M g (some ⟨m₀.frame, m₀.payload⟩) = some g₀ ∧ Follows M np g₀ [] [] rest := by
  rw [run_append, run_receives M _ hpre, Option.some_bind, run_singleton, step] at h
  obtain ⟨np₂, game, h₂, hgame, rfl⟩ := (runFrame_eq_some M).mp h
  simp only [pollMessage, listen, List.nil_append, hm, handleMessage, h₀, resetInputBatch, Option.bind_eq_bind,
    Option.map_eq_some', Option.bind_eq_some] at h₂
  obtain ⟨_, ⟨g₀, hg₀, ⟨⟩⟩, rfl⟩ := h₂
  refine ⟨g₀, hg₀, ⟨⟨[.runFrame], [], ?_, rfl, rfl, rfl⟩, ⟨[], rfl, rfl⟩, hd⟩⟩
  rw [Game.exec_cons, Game.apply, hgame]
  rfl

/-! ### Agreement -/

private theorem received_cons {pre : List Event} (hpre : ∀ e ∈ pre, e.isCall = false) (hne : pre ≠ []) :
    ∃ m rest, receivedOf pre = m :: rest := by
  obtain ⟨e, pre, rfl⟩ := List.exists_cons_of_ne_nil hne
  cases e with
  | receive msg => exact ⟨msg, _, rfl⟩
  | _ => simp [Event.isCall] at hpre

private theorem init_localJoy {g g₀ : Game S} {cp : Option Checkpoint} (h : Game.init M g cp = some g₀) :
    g₀.localJoy = g.localJoy := by
  cases cp with
  | some cp => obtain ⟨_, -, rfl⟩ := (Game.rollback_eq_some M).mp h; rfl
  | none => cases h; rfl

/-- Two peers refine lockstep play: over every interleaving, each game is in step with lockstep play of the bitmaps it
sent and a prefix of those the other sent, so the checkpoints agree at every frame both have confirmed. -/
theorem peers_refine_lockstep (gH gG : Game S) (preH postH preG postG : List Event) (npH npG : Netplay S)
    (hjoy : gG.localJoy = gH.localJoy.other)
    (hpreH : ∀ e ∈ preH, e.isCall = false) (hpostH : ∀ e ∈ postH, e ≠ .sendReset)
    (hpreG : ∀ e ∈ preG, e.isCall = false) (hstart : preG ≠ []) (hpostG : ∀ e ∈ postG, e ≠ .sendReset)
    (hH : run M (listen gH) (preH ++ .sendReset :: postH) = some npH)
    (hG : run M (listen gG) (preG ++ .runFrame :: postG) = some npG)
    (hHG : receivedOf (preH ++ .sendReset :: postH) <+: npG.toSend)
    (hGH : receivedOf (preG ++ .runFrame :: postG) <+: npH.toSend) :
    (∃ rs, rs <+: sentOf postG ∧ Game.Synced M npH.game gH.bus 0 (sentOf postH) rs) ∧
      (∃ rs, rs <+: sentOf postH ∧ Game.Synced M npG.game gH.bus 0 (sentOf postG) rs) ∧
      (npH.game.cp.frame = npG.game.cp.frame → npH.game.cp.state = npG.game.cp.state) := by
  simp only [receivedOf_append, receivedOf] at hHG hGH
  -- the guest queues `Input` messages only, so the host is delivered no `Reset`
  have hnoG : ∀ e ∈ preG ++ .runFrame :: postG, e ≠ .sendReset := fun e he hs => by
    rcases List.mem_append.mp he with h | h
    · simpa [hs, Event.isCall] using hpreG e h
    · exact (List.mem_cons.mp h).elim (fun h => by cases hs ▸ h) fun h => hpostG e h hs
  obtain ⟨msG, hmsG, hinG⟩ := run_toSend M hnoG hG
  rw [show npG.toSend = msG by simpa [listen] using hmsG] at hHG
  have hnrH : ∀ m ∈ receivedOf preH ++ receivedOf postH, m.type ≠ .reset := fun m h => by
    rw [hinG m (hHG.subset h)]; decide
  rw [List.append_cons, run_append] at hH hG
  obtain ⟨npH₁, hH₁, hH₂⟩ := Option.bind_eq_some.mp hH
  obtain ⟨npG₁, hG₁, hG₂⟩ := Option.bind_eq_some.mp hG
  obtain ⟨g₀H, hg₀H, hsH₁, hfH₁⟩ := Follows.host M gH hpreH (fun m h => hnrH m (List.mem_append_left _ h)) hH₁
  -- the host queues its `Reset` and then `Input` messages only, so the guest takes in one `Reset`, the first
  obtain ⟨msH, hmsH, hinH⟩ := run_toSend M hpostH hH₂
  obtain ⟨m₀, rest, hm⟩ := received_cons hpreG hstart
  rw [hmsH, hsH₁, hm, List.cons_append, List.singleton_append, List.cons_prefix_cons] at hGH
  obtain ⟨rfl, hGH⟩ := hGH
  have hnrG : ∀ m ∈ rest ++ receivedOf postG, m.type ≠ .reset := fun m h => by
    rw [hinH m (hGH.subset h)]; decide
  obtain ⟨g₀G, hg₀G, hfG₁⟩ := Follows.guest M gG hpreG hm rfl (fun m h => hnrG m (List.mem_append_left _ h)) hG₁
  -- each game is in step with lockstep play from the host's state at frame 0
  have hfH := hfH₁.run hpostH (fun m h => hnrH m (List.mem_append_right _ h)) hH₂
  have hfG := hfG₁.run hpostG (fun m h => hnrG m (List.mem_append_right _ h)) hG₂
  obtain ⟨opsH, handledH, hexH, hlH, hrH, hqH⟩ := hfH.game
  obtain ⟨opsG, handledG, hexG, hlG, hrG, hqG⟩ := hfG.game
  obtain ⟨msH', hmsH', hbH⟩ := hfH.toSend
  obtain ⟨msG', hmsG', hbG⟩ := hfG.toSend
  rw [hmsH, hsH₁, List.singleton_append, List.singleton_append, List.cons_inj_right] at hmsH'
  rw [hmsG, List.nil_append] at hmsG'
  subst hmsH' hmsG'
  have hsH := (Game.Started.host hg₀H).synced.exec hexH
  have hsG := (Game.Started.guest rfl hg₀G).synced.exec hexG
  rw [List.nil_append] at hsH hsG hbH hbG
  rw [hlH] at hsH
  rw [hlG] at hsG
  -- each peer's remote bitmaps are a prefix of the other's sent ones
  have hpH : Game.remotesOf opsH <+: sentOf postG := by
    rw [hrH, ← hbG]
    exact (inputsOf_mono (List.IsPrefix.trans ⟨npH.toRecv, hqH⟩ hHG)).trans (List.prefix_append _ _)
  have hpG : Game.remotesOf opsG <+: sentOf postH := by
    rw [hrG, ← hbH]
    exact (inputsOf_mono (List.IsPrefix.trans ⟨npG.toRecv, hqG⟩ hGH)).trans (List.prefix_append _ _)
  refine ⟨⟨_, hpH, hsH⟩, ⟨_, hpG, hsG⟩, hsH.checkpoint_eq hsG ?_ hpH hpG⟩
  rw [Game.localJoy_exec hexG, Game.localJoy_exec hexH, init_localJoy M hg₀G, init_localJoy M hg₀H, hjoy]

theorem peers_refine_lockstep_tape :
    ∃ npH npG, run Console.tape (listen (Game.newGame [] .joy1))
        ([] ++ .sendReset :: (frameCalls [1, 2, 3, 4, 5] ++
          [.receive ⟨.input, 0, [6, 7, 8, 9, 10]⟩, .sendInput 11, .runFrame])) = some npH ∧
      run Console.tape (listen (Game.newGame [] .joy2))
        ([.receive ⟨.reset, 0, []⟩] ++ .runFrame :: (frameCalls [6, 7, 8, 9, 10] ++
          [.receive ⟨.input, 0, [1, 2, 3, 4, 5]⟩, .sendInput 12, .runFrame])) = some npG ∧
      receivedOf ([] ++ .sendReset :: (frameCalls [1, 2, 3, 4, 5] ++
        [.receive ⟨.input, 0, [6, 7, 8, 9, 10]⟩, .sendInput 11, .runFrame])) <+: npG.toSend ∧
      receivedOf ([.receive ⟨.reset, 0, []⟩] ++ .runFrame :: (frameCalls [6, 7, 8, 9, 10] ++
        [.receive ⟨.input, 0, [1, 2, 3, 4, 5]⟩, .sendInput 12, .runFrame])) <+: npH.toSend ∧
      npH.game.cp.frame = 5 ∧ npG.game.cp.frame = 5 ∧ npH.game.cp.state = npG.game.cp.state :=
  ⟨_, _, rfl, rfl, ⟨[], rfl⟩, ⟨[], rfl⟩, rfl, rfl,
    (peers_refine_lockstep Console.tape (Game.newGame [] .joy1) (Game.newGame [] .joy2) []
      (frameCalls [1, 2, 3, 4, 5] ++ ([.receive ⟨.input, 0, [6, 7, 8, 9, 10]⟩, .sendInput 11, .runFrame] : List Event))
      [.receive ⟨.reset, 0, []⟩]
      (frameCalls [6, 7, 8, 9, 10] ++ ([.receive ⟨.input, 0, [1, 2, 3, 4, 5]⟩, .sendInput 12, .runFrame] : List Event))
      _ _ rfl
      (by simp) (by decide) (by decide) (List.cons_ne_nil _ _) (by decide) rfl rfl ⟨[], rfl⟩ ⟨[], rfl⟩).2.2
      (@Eq.trans UInt32 _ 5 _ rfl rfl)⟩

end Netplay

end Dendy
