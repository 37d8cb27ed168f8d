import CppToolkit.Network.KeyExchange

/-! When `encrypt_message` hands on ciphertext: the jobs have to read key and IV after
the handshake has stored them. -/
namespace CppToolkit.Network
open Utilities Bag Machine

/-- The padding of the cipher: no ciphertext is as short as its plaintext. -/
def Padded (cipher : Cipher) : Prop :=
  ∀ key iv data encrypted, cipher.encrypt key iv data = .ok encrypted →
    data.length < encrypted.length

/-- The bytes come from the encryption of the packet and are not the packet. -/
def HandedOn.Encrypted (cipher : Cipher) (h : HandedOn) : Prop :=
  (∃ key iv, Encryptor.encryption cipher h.packet key iv = .ok (.ok h.bytes)) ∧
    h.bytes ≠ h.packet

/-- With a packet, a key and an IV the encryption returns a buffer or throws. -/
theorem encryption_present {cipher : Cipher} (padded : Padded cipher) {packet key iv : List UInt8}
    (nonempty : packet ≠ []) (keyed : key ≠ []) (ived : iv ≠ [])
    {buffer : Except String (List UInt8)}
    (returned : Encryptor.encryption cipher packet key iv = .ok buffer) :
    HandedOn.Encrypted cipher ⟨packet, orRaw packet buffer⟩ := by
  have called := returned
  rw [Encryptor.encryption, Encryptor.withKey_present nonempty keyed ived] at called
  cases encrypts : cipher.encrypt (cipher.fromBase64 key) (cipher.fromBase64 iv) packet with
  | error what =>
      rw [encrypts] at called
      cases called
  | ok bytes =>
      rw [encrypts] at called
      cases called
      refine ⟨⟨key, iv, returned⟩, ?_⟩
      intro same
      have longer := padded _ _ _ _ encrypts
      change bytes = packet at same
      rw [same] at longer
      exact Nat.lt_irrefl _ longer

def Store.isKey : Store → Bool
  | .key _ => true
  | _ => false

def Store.isIv : Store → Bool
  | .iv _ => true
  | _ => false

namespace Exchange

/-- The value that a job reads is there. -/
def ReadsPresent (role : Role) (s : Exchange) : Action role → Prop
  | .readKey _ => s.key ≠ []
  | .readIv _ => s.iv ≠ []
  | _ => True

/-- Some handler has still to perform such a store. -/
def Pending (which : Store → Bool) (handlers : List (List Store)) : Prop :=
  ∃ stores ∈ handlers, ∃ store ∈ stores, which store = true

/-- No job reads a value that is missing while a handler has still to store it. -/
def AfterStores (s : Exchange) : Action session → Prop
  | .readKey _ => ¬ (s.key = [] ∧ Pending Store.isKey s.handlers)
  | .readIv _ => ¬ (s.iv = [] ∧ Pending Store.isIv s.handlers)
  | _ => True

/-- Packets are not empty, what was read is not empty, and what was handed on is
encrypted. -/
structure Protected (cipher : Cipher) (s : Exchange) : Prop where
  jobs : ∀ packet ∈ s.jobs, packet ≠ []
  packets : ∀ r ∈ s.running, r.packet ≠ []
  keys : ∀ r ∈ s.running, r.key ≠ some []
  ivs : ∀ r ∈ s.running, r.iv ≠ some []
  handedOn : ∀ h ∈ s.handedOn, h.Encrypted cipher

theorem initial_protected (cipher : Cipher) : initial.Protected cipher :=
  ⟨fun _ member => (by cases member), fun _ member => (by cases member),
    fun _ member => (by cases member), fun _ member => (by cases member),
    fun _ member => (by cases member)⟩

/-- Replacing a running job by one that has read more. -/
theorem Protected.running {cipher : Cipher} {s : Exchange} (held : s.Protected cipher)
    {position : Nat} {before : Encrypting} {rest : List Encrypting}
    (taken : takeAt s.running position = some (before, rest)) {next : Encrypting}
    (packet : next.packet = before.packet) (key : next.key = before.key ∨ next.key ≠ some [])
    (iv : next.iv = before.iv ∨ next.iv ≠ some []) :
    Protected cipher { s with running := next :: rest } where
  jobs := held.jobs
  packets := List.forall_mem_cons.mpr ⟨packet ▸ held.packets _ (takeAt_mem taken),
    fun r member => held.packets r (mem_of_takeAt taken member)⟩
  keys := List.forall_mem_cons.mpr ⟨key.elim (fun same => same ▸ held.keys _ (takeAt_mem taken)) id,
    fun r member => held.keys r (mem_of_takeAt taken member)⟩
  ivs := List.forall_mem_cons.mpr ⟨iv.elim (fun same => same ▸ held.ivs _ (takeAt_mem taken)) id,
    fun r member => held.ivs r (mem_of_takeAt taken member)⟩
  handedOn := held.handedOn

theorem handOnStep_protected {cipher : Cipher} (padded : Padded cipher) {s : Exchange}
    (held : s.Protected cipher) {position : Nat} {packet key iv : List UInt8}
    {rest : List Encrypting}
    (taken : takeAt s.running position = some (⟨packet, some key, some iv⟩, rest)) :
    (s.handOnStep cipher packet key iv rest).Protected cipher := by
  have member := takeAt_mem taken
  have left : ∀ r ∈ rest, r ∈ s.running := fun r inside => mem_of_takeAt taken inside
  unfold handOnStep
  split
  next =>
    exact ⟨held.jobs, fun r inside => held.packets r (left r inside),
      fun r inside => held.keys r (left r inside), fun r inside => held.ivs r (left r inside),
      held.handedOn⟩
  next buffer returned =>
    refine ⟨held.jobs, fun r inside => held.packets r (left r inside),
      fun r inside => held.keys r (left r inside), fun r inside => held.ivs r (left r inside), ?_⟩
    intro h inside
    rcases List.mem_append.mp inside with old | new
    · exact held.handedOn h old
    · rw [List.mem_singleton.mp new]
      have keyed : key ≠ [] := fun empty => held.keys _ member (congrArg some empty)
      have ived : iv ≠ [] := fun empty => held.ivs _ member (congrArg some empty)
      exact encryption_present padded (held.packets _ member) keyed ived returned

theorem storeStep_protected {role : Role} {cipher : Cipher} {s : Exchange} (held : s.Protected cipher)
    (fresh : role.Fresh) (rest : List Store) (others : List (List Store)) (store : Store) :
    (s.storeStep role fresh rest others store).Protected cipher := by
  cases store with
  | key => exact ⟨held.jobs, held.packets, held.keys, held.ivs, held.handedOn⟩
  | iv => exact ⟨held.jobs, held.packets, held.keys, held.ivs, held.handedOn⟩
  | condition =>
      simp only [storeStep]
      split <;> exact ⟨held.jobs, held.packets, held.keys, held.ivs, held.handedOn⟩

theorem pushStep_protected {cipher : Cipher} {s : Exchange} (held : s.Protected cipher)
    (mode : DataModes) (data : List UInt8) (rest : List (DataModes × List UInt8)) :
    (s.pushStep mode data rest).Protected cipher := by
  unfold pushStep
  split
  next => exact ⟨held.jobs, held.packets, held.keys, held.ivs, held.handedOn⟩
  next =>
    refine ⟨?_, held.packets, held.keys, held.ivs, held.handedOn⟩
    intro packet member
    rcases List.mem_append.mp member with old | new
    · exact held.jobs packet old
    · rw [List.mem_singleton.mp new, DataHandler.packet, Combiner.append_eq]
      exact List.append_ne_nil_of_right_ne_nil _ (Combiner.field_ne_nil data)

theorem startStep_protected {cipher : Cipher} {s : Exchange} (held : s.Protected cipher)
    {position : Nat} {packet : List UInt8} {rest : List (List UInt8)}
    (taken : takeAt s.jobs position = some (packet, rest)) :
    (s.startStep packet rest).Protected cipher := by
  have left : ∀ p ∈ rest, p ≠ [] := fun p member => held.jobs p (mem_of_takeAt taken member)
  unfold startStep
  split
  next => exact ⟨left, held.packets, held.keys, held.ivs, held.handedOn⟩
  next =>
    exact ⟨left, List.forall_mem_cons.mpr ⟨held.jobs packet (takeAt_mem taken), held.packets⟩,
      List.forall_mem_cons.mpr ⟨nofun, held.keys⟩, List.forall_mem_cons.mpr ⟨nofun, held.ivs⟩,
      held.handedOn⟩

/-- One step of any thread, if a read finds its value. -/
theorem protected_step {role : Role} {cipher : Cipher} (padded : Padded cipher)
    {s t : Exchange} {a : Action role} (held : s.Protected cipher) (present : ReadsPresent role s a)
    (stepped : step role cipher s a = some t) : t.Protected cipher := by
  cases a with
  | enter handler =>
      simp only [step] at stepped
      split at stepped <;> cases stepped
      exact ⟨held.jobs, held.packets, held.keys, held.ivs, held.handedOn⟩
  | store thread fresh =>
      simp only [step] at stepped
      split at stepped <;> cases stepped
      exact storeStep_protected held fresh _ _ _
  | call data =>
      simp only [step] at stepped
      split at stepped <;> cases stepped
      exact ⟨held.jobs, held.packets, held.keys, held.ivs, held.handedOn⟩
  | push position =>
      simp only [step] at stepped
      split at stepped <;> cases stepped
      exact pushStep_protected held _ _ _
  | startJob position =>
      simp only [step] at stepped
      split at stepped
      next taken =>
        cases stepped
        exact startStep_protected held taken
      next => cases stepped
  | readKey job =>
      simp only [step] at stepped
      split at stepped
      next taken =>
        cases stepped
        exact held.running taken rfl (.inr fun empty => present (Option.some.inj empty)) (.inl rfl)
      next => cases stepped
  | readIv job =>
      simp only [step] at stepped
      split at stepped
      next taken =>
        cases stepped
        exact held.running taken rfl (.inl rfl) (.inr fun empty => present (Option.some.inj empty))
      next => cases stepped
  | handOn job =>
      simp only [step] at stepped
      split at stepped
      next taken =>
        cases stepped
        exact handOnStep_protected padded held taken
      next => cases stepped

/-- Key and IV are never stored empty, and both are stored behind `Confirmed`. -/
def Orderly : List Store → Prop
  | [] => True
  | .key value :: rest => value ≠ [] ∧ Orderly rest
  | .iv value :: rest => value ≠ [] ∧ Orderly rest
  | .condition value :: rest =>
      (value = .confirmed → (∃ store ∈ rest, store.isKey = true) ∧
        ∃ store ∈ rest, store.isIv = true) ∧ Orderly rest

theorem orderly_stores (handler : SessionHandler) : Orderly (session.stores handler) := by
  cases handler with
  | start => exact ⟨nofun, nofun, trivial⟩
  | accept key iv =>
      exact ⟨fun _ => ⟨⟨.key key, by simp, rfl⟩, ⟨.iv iv, by simp, rfl⟩⟩, key.property, iv.property,
        trivial⟩
  | reject key iv => exact ⟨nofun, key.property, iv.property, trivial⟩
  | expire => exact ⟨nofun, trivial⟩

/-- A packet may be on its way to `encrypt_message`. -/
def Active (s : Exchange) : Prop :=
  s.condition = .confirmed ∨ s.sending ≠ [] ∨ s.jobs ≠ [] ∨ s.running ≠ []

theorem Active.ofRunning {s : Exchange} {position : Nat} {r : Encrypting} {rest : List Encrypting}
    (taken : takeAt s.running position = some (r, rest)) : s.Active :=
  .inr (.inr (.inr (List.ne_nil_of_mem (takeAt_mem taken))))

/-- While packets are on their way, key and IV are there or will be stored. -/
structure Ready (s : Exchange) : Prop where
  orderly : ∀ stores ∈ s.handlers, Orderly stores
  key : s.Active → s.key ≠ [] ∨ Pending Store.isKey s.handlers
  iv : s.Active → s.iv ≠ [] ∨ Pending Store.isIv s.handlers

theorem initial_ready : initial.Ready := by
  have idle : ¬ initial.Active := by
    simp [Active, initial]
  exact ⟨fun _ member => (by cases member), fun active => absurd active idle,
    fun active => absurd active idle⟩

/-- What was pending stays pending when another store is performed. -/
theorem Pending.remains {which : Store → Bool} {handlers others : List (List Store)}
    {thread : Nat} {store : Store} {rest : List Store}
    (taken : takeAt handlers thread = some (store :: rest, others)) (other : which store = false)
    (pending : Pending which handlers) (inserted : List Store) :
    Pending which ((inserted ++ rest) :: others) := by
  obtain ⟨stores, member, x, inside, is⟩ := pending
  rcases (mem_iff_of_takeAt taken).mp member with rfl | left
  · rcases List.mem_cons.mp inside with rfl | later
    · rw [other] at is
      cases is
    · exact ⟨_, List.mem_cons_self, x, List.mem_append_right _ later, is⟩
  · exact ⟨stores, List.mem_cons_of_mem _ left, x, inside, is⟩

/-- A step that performs no store. -/
theorem Ready.quiet {s t : Exchange} (ready : s.Ready) (active : t.Active → s.Active)
    (key : t.key = s.key) (iv : t.iv = s.iv) (handlers : t.handlers = s.handlers) : t.Ready where
  orderly := handlers ▸ ready.orderly
  key := fun busy => by
    rw [key, handlers]
    exact ready.key (active busy)
  iv := fun busy => by
    rw [iv, handlers]
    exact ready.iv (active busy)

theorem storeStep_ready {s : Exchange} (ready : s.Ready) {thread : Nat} {store : Store}
    {rest : List Store} {others : List (List Store)}
    (taken : takeAt s.handlers thread = some (store :: rest, others)) (fresh : session.Fresh) :
    (s.storeStep session fresh rest others store).Ready := by
  have orderly := ready.orderly _ (takeAt_mem taken)
  have left : ∀ stores ∈ others, Orderly stores := fun stores member =>
    ready.orderly stores (mem_of_takeAt taken member)
  cases store with
  | key value =>
      exact ⟨List.forall_mem_cons.mpr ⟨orderly.2, left⟩, fun _ => .inl orderly.1,
        fun active => (ready.iv active).imp id fun pending => pending.remains taken rfl []⟩
  | iv value =>
      exact ⟨List.forall_mem_cons.mpr ⟨orderly.2, left⟩,
        fun active => (ready.key active).imp id fun pending => pending.remains taken rfl [],
        fun _ => .inl orderly.1⟩
  | condition value =>
      simp only [storeStep]
      split
      next expires =>
        have idle : ∀ handlers,
            Active { s with condition := value, handlers := handlers } → s.Active := by
          rintro handlers (confirmed | busy)
          · cases expires.2.symm.trans confirmed
          · exact .inr busy
        refine ⟨List.forall_mem_cons.mpr ⟨⟨fresh.1.property, fresh.2.property, orderly.2⟩, left⟩,
          ?_, ?_⟩
        · intro active
          exact (ready.key (idle _ active)).imp id
            fun pending => pending.remains taken rfl (session.disconnected fresh)
        · intro active
          exact (ready.iv (idle _ active)).imp id
            fun pending => pending.remains taken rfl (session.disconnected fresh)
      next =>
        refine ⟨List.forall_mem_cons.mpr ⟨orderly.2, left⟩, ?_, ?_⟩
        · intro active
          rcases active with confirmed | rest_
          · obtain ⟨store, member, is⟩ := (orderly.1 confirmed).1
            exact .inr ⟨rest, List.mem_cons_self, store, member, is⟩
          · exact (ready.key (.inr rest_)).imp id fun pending => pending.remains taken rfl []
        · intro active
          rcases active with confirmed | rest_
          · obtain ⟨store, member, is⟩ := (orderly.1 confirmed).2
            exact .inr ⟨rest, List.mem_cons_self, store, member, is⟩
          · exact (ready.iv (.inr rest_)).imp id fun pending => pending.remains taken rfl []

theorem Pending.cons {which : Store → Bool} {handlers : List (List Store)}
    (pending : Pending which handlers) (stores : List Store) : Pending which (stores :: handlers) := by
  obtain ⟨found, member, rest⟩ := pending
  exact ⟨found, List.mem_cons_of_mem _ member, rest⟩

theorem ready_step {cipher : Cipher} {s t : Exchange} {a : Action session} (ready : s.Ready)
    (stepped : step session cipher s a = some t) : t.Ready := by
  cases a with
  | enter handler =>
      simp only [step] at stepped
      split at stepped <;> cases stepped
      exact ⟨List.forall_mem_cons.mpr ⟨orderly_stores handler, ready.orderly⟩,
        fun active => (ready.key active).imp id fun pending => pending.cons _,
        fun active => (ready.iv active).imp id fun pending => pending.cons _⟩
  | store thread fresh =>
      simp only [step] at stepped
      split at stepped
      next taken =>
        cases stepped
        exact storeStep_ready ready taken fresh
      next => cases stepped
  | call data =>
      simp only [step] at stepped
      split at stepped
      next allowed =>
        cases stepped
        exact ready.quiet (fun _ => .inl allowed.1) rfl rfl rfl
      next => cases stepped
  | push position =>
      simp only [step] at stepped
      split at stepped
      next taken =>
        cases stepped
        have active : s.Active := .inr (.inl (List.ne_nil_of_mem (takeAt_mem taken)))
        unfold pushStep
        split <;> exact ready.quiet (fun _ => active) rfl rfl rfl
      next => cases stepped
  | startJob position =>
      simp only [step] at stepped
      split at stepped
      next taken =>
        cases stepped
        have active : s.Active := .inr (.inr (.inl (List.ne_nil_of_mem (takeAt_mem taken))))
        unfold startStep
        split <;> exact ready.quiet (fun _ => active) rfl rfl rfl
      next => cases stepped
  | readKey job =>
      simp only [step] at stepped
      split at stepped
      next taken =>
        cases stepped
        exact ready.quiet (fun _ => Active.ofRunning taken) rfl rfl rfl
      next => cases stepped
  | readIv job =>
      simp only [step] at stepped
      split at stepped
      next taken =>
        cases stepped
        exact ready.quiet (fun _ => Active.ofRunning taken) rfl rfl rfl
      next => cases stepped
  | handOn job =>
      simp only [step] at stepped
      split at stepped
      next taken =>
        cases stepped
        have active := Active.ofRunning taken
        unfold handOnStep
        split <;> exact ready.quiet (fun _ => active) rfl rfl rfl
      next => cases stepped

/-- A read that no store is still to precede finds its value. -/
theorem Ready.present {cipher : Cipher} {s t : Exchange} {a : Action session} (ready : s.Ready)
    (after : s.AfterStores a) (stepped : step session cipher s a = some t) :
    ReadsPresent session s a := by
  cases a with
  | readKey job =>
      simp only [step] at stepped
      split at stepped
      next taken =>
        intro missing
        exact (ready.key (Active.ofRunning taken)).elim (fun there => there missing)
          fun pending => after ⟨missing, pending⟩
      next => cases stepped
  | readIv job =>
      simp only [step] at stepped
      split at stepped
      next taken =>
        intro missing
        exact (ready.iv (Active.ofRunning taken)).elim (fun there => there missing)
          fun pending => after ⟨missing, pending⟩
      next => cases stepped
  | enter handler => trivial
  | store thread fresh => trivial
  | call data => trivial
  | push position => trivial
  | startJob position => trivial
  | handOn job => trivial

/-- In a session whose jobs read behind the stores, and in a client whose jobs find a key
and an IV, every packet is handed on encrypted. -/
theorem handed_on_encrypted {cipher : Cipher} (padded : Padded cipher) :
    (∀ actions s, run (step session cipher) initial actions = some s →
      Along (step session cipher) AfterStores initial actions →
        ∀ h ∈ s.handedOn, h.Encrypted cipher) ∧
    ∀ actions s, run (step client cipher) initial actions = some s →
      Along (step client cipher) (ReadsPresent client) initial actions →
        ∀ h ∈ s.handedOn, h.Encrypted cipher := by
  constructor
  · intro actions s ran along
    have kept : s.Ready ∧ s.Protected cipher := by
      refine @run_invariant _ _ _ AfterStores (fun s => s.Ready ∧ s.Protected cipher) ?_ _ _ _
        ⟨initial_ready, initial_protected cipher⟩ along ran
      intro s a t held after stepped
      exact ⟨ready_step held.1 stepped,
        protected_step padded held.2 (held.1.present after stepped) stepped⟩
    exact kept.2.handedOn
  · intro actions s ran along
    have kept : s.Protected cipher :=
      run_invariant (fun s a t held present stepped => protected_step padded held present stepped)
        (initial_protected cipher) along ran
    exact kept.handedOn

theorem padded_sample : Padded .sample := by
  intro key iv data encrypted encrypts
  obtain ⟨_, coded, longer, _⟩ := Cipher.known_encrypts Cipher.distinct_sample key iv data
  cases coded.symm.trans encrypts
  exact longer

/-- The message `hi` behind a completed handshake. -/
def orderedRun : List (Action session) :=
  let fresh := (⟨Cipher.sampleKey, by decide⟩, ⟨Cipher.sampleIv, by decide⟩)
  [.enter .start, .store 0 fresh, .store 0 fresh, .enter (.accept fresh.1 fresh.2), .store 0 fresh,
    .store 0 fresh, .store 0 fresh, .call [(.message, [104, 105])], .push 0, .startJob 0,
    .readKey 0, .readIv 0, .handOn 0]

theorem handed_on_encrypted_hi :
    ∃ s, run (step session .sample) initial orderedRun = some s ∧
      s.handedOn = [⟨Cipher.samplePacket, Cipher.sampleCiphertext⟩] ∧
      ∀ h ∈ s.handedOn, h.Encrypted .sample := by
  refine ⟨_, rfl, rfl, (handed_on_encrypted padded_sample).1 orderedRun _ rfl ?_⟩
  have keyed : Cipher.sampleKey ≠ [] := by decide
  have ived : Cipher.sampleIv ≠ [] := by decide
  iterate 10 refine .cons rfl trivial ?_
  exact .cons rfl (fun missing => keyed missing.1)
    (.cons rfl (fun missing => ived missing.1) (.cons rfl trivial trivial))

/-- A send and its job between the store of `Confirmed` and those of key and IV. -/
def earlyRun : List (Action session) :=
  let fresh := (⟨Cipher.sampleKey, by decide⟩, ⟨Cipher.sampleIv, by decide⟩)
  [.enter .start, .store 0 fresh, .store 0 fresh, .enter (.accept fresh.1 fresh.2), .store 0 fresh,
    .call [(.message, [104, 105])], .push 0, .startJob 0, .readKey 0, .readIv 0, .handOn 0]

theorem early_hands_on_plain :
    ¬ ∀ cipher, Padded cipher → ∀ actions s,
      run (step session cipher) initial actions = some s → ∀ h ∈ s.handedOn, h.Encrypted cipher := by
  intro encrypted
  have plain : ∃ s, run (step session .sample) initial earlyRun = some s ∧
      s.handedOn = [⟨Cipher.samplePacket, Cipher.samplePacket⟩] := ⟨_, rfl, rfl⟩
  obtain ⟨s, ran, handedOn⟩ := plain
  have member : ⟨Cipher.samplePacket, Cipher.samplePacket⟩ ∈ s.handedOn := by
    rw [handedOn]
    exact List.mem_singleton_self _
  exact (encrypted .sample padded_sample earlyRun s ran _ member).2 rfl

end Exchange
end CppToolkit.Network
