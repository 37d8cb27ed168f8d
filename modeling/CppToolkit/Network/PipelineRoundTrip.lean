import CppToolkit.Library.Machine
import CppToolkit.Network.Pipeline
import CppToolkit.Utilities.CompressorRoundTrip

/-! A packet that `send` accepts reaches `received_data` of the peer once, unchanged. -/
namespace CppToolkit.Network
open Memory Utilities Bag Machine

/-- Two live peers that agree on encryption and, where it is on, on a valid key and IV. -/
structure Matched (c : Codecs) (sender receiver : DataHandler) : Prop where
  senderLive : sender.condition ≠ .expired
  receiverLive : receiver.condition ≠ .expired
  connected : sender.socket ≠ none
  senderPool : sender.threadPool = some false
  receiverPool : receiver.threadPool = some false
  mode : sender.encryptMode = receiver.encryptMode
  keys : sender.encryptMode = true → sender.key = receiver.key ∧ sender.iv = receiver.iv ∧
    sender.key ≠ [] ∧ sender.iv ≠ [] ∧ c.cipher.Inverts sender.key sender.iv

namespace DataHandler
variable {c : Codecs} {h : DataHandler}

theorem push_running (pool : h.threadPool = some false) (job : Job) : h.push job = .ok job := by
  rw [push, pool]

theorem alive_live (live : h.condition ≠ .expired) (pool : h.threadPool = some false)
    (body : Checked Worked) : h.alive body = body := by
  have running : h.threadPool ≠ none := by
    rw [pool]
    exact Option.some_ne_none _
  rw [alive, if_neg live, if_neg running]

theorem packet_eq (mode : DataModes) (data : List UInt8) :
    packet mode data = Combiner.field [mode.code] ++ Combiner.field data := by
  rw [packet, Combiner.append_eq, Combiner.append_eq, List.nil_append]

theorem packet_ne_nil (mode : DataModes) (data : List UInt8) : packet mode data ≠ [] := by
  rw [packet_eq]
  exact List.append_ne_nil_of_left_ne_nil (Combiner.field_ne_nil _) _

/-- The two fields of a packet are what the receiving job finds. -/
theorem receivingWork_packet {mode : DataModes} {data : List UInt8} (nonempty : data ≠ [])
    (fits : (packet mode data).length < 2 ^ 63) :
    receivingWork (packet mode data) = .ok (.received mode.code data) := by
  have first := Combiner.divide_field [] [mode.code] (Combiner.field data)
    (by rw [List.nil_append, ← packet_eq]; exact Memory.lt_sizeMax fits)
  have second := Combiner.divide_field (Combiner.field [mode.code]) data []
    (by rw [List.append_nil, ← packet_eq]; exact Memory.lt_sizeMax fits)
  rw [List.nil_append, ← packet_eq] at first
  rw [List.append_nil, ← packet_eq, Combiner.field_length] at second
  rw [receivingWork, if_neg (packet_ne_nil mode data)]
  change (Combiner.divide (packet mode data) ([] : List UInt8).length >>= _) = _
  rw [first, ok_bind]
  change (Combiner.divide (packet mode data) (8 + [mode.code].length) >>= _) = _
  rw [second, ok_bind]
  exact if_neg nonempty

end DataHandler

/-- The bytes of a packet after encryption and after compression, and what the six jobs
that carry it come to. -/
structure Carried (c : Codecs) (sender receiver : DataHandler) (packet coded image : List UInt8)
    (mode : DataModes) (data : List UInt8) : Prop where
  encrypts : sender.work c (.encryptMessage packet) = some (.ok (.pushed (.compressMessage coded)))
  compresses : sender.work c (.compressMessage coded) = some (.ok (.pushed (.sendingJob image)))
  sends : sender.work c (.sendingJob image) = some (.ok (.written image))
  decompresses : receiver.work c (.decompressMessage image) =
    some (.ok (.pushed (.decryptMessage coded)))
  decrypts : receiver.work c (.decryptMessage coded) = some (.ok (.pushed (.receivingJob packet)))
  receives : receiver.work c (.receivingJob packet) = some (.ok (.received mode.code data))

section
variable {c : Codecs} {sender receiver : DataHandler}

theorem Matched.encrypted (matched : Matched c sender receiver) {packet : List UInt8}
    (nonempty : packet ≠ []) : ∃ coded, coded ≠ [] ∧
      sender.encryptMessage c packet = .ok (.pushed (.compressMessage coded)) ∧
      receiver.decryptMessage c coded = .ok (.pushed (.receivingJob packet)) ∧
      (sender.encryptMode = false → coded = packet) := by
  have pushes := DataHandler.push_running matched.senderPool
  have pushes' := DataHandler.push_running matched.receiverPool
  have alive := DataHandler.alive_live matched.senderLive matched.senderPool
  have alive' := DataHandler.alive_live matched.receiverLive matched.receiverPool
  cases on : sender.encryptMode with
  | false =>
      have off : receiver.encryptMode = false := matched.mode.symm.trans on
      refine ⟨packet, nonempty, ?_, ?_, fun _ => rfl⟩
      · rw [DataHandler.encryptMessage, alive, on, pushes]
        rfl
      · rw [DataHandler.decryptMessage, alive', off, pushes']
        rfl
  | true =>
      have on' : receiver.encryptMode = true := matched.mode.symm.trans on
      obtain ⟨key, iv, keyed, ived, inverts⟩ := matched.keys on
      obtain ⟨coded, encrypts, some_, decrypts⟩ :=
        Encryptor.encryption_round_trip inverts keyed ived nonempty
      refine ⟨coded, some_, ?_, ?_, fun off => (by cases off)⟩
      · rw [DataHandler.encryptMessage, alive, on, if_pos rfl, encrypts, DataHandler.pushCoded, orRaw,
          pushes]
        rfl
      · rw [DataHandler.decryptMessage, alive', on', if_pos rfl, ← key, ← iv, decrypts,
          DataHandler.pushCoded, orRaw, pushes']
        rfl

/-- The packet that encryption hands on stays below 2 GiB when it is compressed. -/
def Small (c : Codecs) (sender : DataHandler) (packet : List UInt8) : Prop :=
  ∀ coded image, sender.encryptMessage c packet = .ok (.pushed (.compressMessage coded)) →
    Compressor.compression c.lz4 coded blockBytes = .ok image → image.length < 2 ^ 31

/-- A packet of one block is small. -/
theorem small_of_single {paired : c.lz4.Stream → c.lz4.StreamDecode → Prop}
    (faithful : c.lz4.Faithful paired) {packet : List UInt8}
    (single : ∀ coded, sender.encryptMessage c packet = .ok (.pushed (.compressMessage coded)) →
      coded ≠ [] ∧ coded.length ≤ blockBytes.toNat) : Small c sender packet := by
  intro coded image encrypts compressed
  obtain ⟨nonempty, one⟩ := single coded encrypts
  exact Nat.lt_of_le_of_lt (Compressor.compression_single_length faithful nonempty one compressed)
    (by decide)

theorem Matched.carried (matched : Matched c sender receiver)
    {paired : c.lz4.Stream → c.lz4.StreamDecode → Prop} (faithful : c.lz4.Faithful paired)
    (mode : DataModes) {data : List UInt8} (nonempty : data ≠ [])
    (fits : (DataHandler.packet mode data).length < 2 ^ 63)
    (small : Small c sender (DataHandler.packet mode data)) :
    ∃ coded image, Carried c sender receiver (DataHandler.packet mode data) coded image mode data ∧
      (sender.encryptMode = false → coded = DataHandler.packet mode data) := by
  obtain ⟨coded, some_, encrypts, decrypts, plain⟩ :=
    matched.encrypted (DataHandler.packet_ne_nil mode data)
  obtain ⟨image, compressed, filled, decompresses⟩ :=
    @Compressor.compression_round_trip _ _ faithful blockBytes (by decide) _ some_
  have sends : (.ok (sender.sendPacket image) : Checked Worked) = .ok (.written image) := by
    rw [DataHandler.sendPacket, if_neg filled, if_neg matched.connected]
  refine ⟨coded, image, ⟨congrArg some encrypts, congrArg some ?_,
    congrArg some sends, congrArg some ?_, congrArg some decrypts,
    congrArg some (DataHandler.receivingWork_packet nonempty fits)⟩, plain⟩
  · rw [DataHandler.compressMessage, DataHandler.alive_live matched.senderLive matched.senderPool,
      compressed, orRaw, DataHandler.push_running matched.senderPool]
    rfl
  · rw [DataHandler.decompressMessage,
      DataHandler.alive_live matched.receiverLive matched.receiverPool,
      decompresses (small coded image encrypts compressed), ok_bind, orRaw,
      DataHandler.push_running matched.receiverPool]
    rfl

end

namespace Link

/-- Where a packet is after each step. -/
def stage (packet coded image : List UInt8) (mode : DataModes) (data : List UInt8) : Nat → Link
  | 0 => sent (.encryptMessage packet)
  | 1 => sent (.compressMessage coded)
  | 2 => sent (.sendingJob image)
  | 3 => ⟨[], [image], [], []⟩
  | 4 => ⟨[], [], [.decompressMessage image], []⟩
  | 5 => ⟨[], [], [.decryptMessage coded], []⟩
  | 6 => ⟨[], [], [.receivingJob packet], []⟩
  | _ => ⟨[], [], [], [(mode.code, data)]⟩

theorem takeAt_single {job : Job} {position : Nat} {taken : Job × List Job}
    (found : takeAt [job] position = some taken) : taken = (job, []) := by
  have perm := takeAt_perm (show takeAt [job] position = some (taken.1, taken.2) from found)
  have length := perm.length_eq
  have nothing : taken.2 = [] := List.eq_nil_of_length_eq_zero (by simpa using length.symm)
  have same : job = taken.1 := by
    rw [nothing] at perm
    exact List.singleton_perm_singleton.mp perm
  rw [Prod.ext_iff]
  exact ⟨same.symm, nothing⟩

section
variable {c : Codecs} {sender receiver : DataHandler} {packet coded image : List UInt8}
  {mode : DataModes} {data : List UInt8}

theorem workStep_ok {h : DataHandler} {l t : Link} {onSender : Bool} {job : Job} {rest : List Job}
    {worked : Worked} (does : h.work c job = some (.ok worked))
    (stepped : workStep c h l onSender job rest = some t) : t = l.settle onSender rest worked := by
  rw [workStep, does] at stepped
  exact (Option.some.inj stepped).symm

/-- A side that holds one job can only run that job. -/
theorem step_sender {job : Job} {worked : Worked} {wire : List (List UInt8)}
    {received : List (UInt8 × List UInt8)} {a : Action} {t : Link}
    (does : sender.work c job = some (.ok worked)) (nothing : wire = [])
    (stepped : step c sender receiver ⟨[job], wire, [], received⟩ a = some t) :
    t = settle ⟨[job], wire, [], received⟩ true [] worked := by
  subst wire
  cases a with
  | sender position =>
      obtain ⟨taken, found, stepped⟩ := Option.bind_eq_some_iff.mp stepped
      rw [takeAt_single found] at stepped
      exact workStep_ok does stepped
  | deliver => cases stepped
  | receiver position => cases stepped

theorem step_receiver {job : Job} {worked : Worked} {received : List (UInt8 × List UInt8)}
    {a : Action} {t : Link} (does : receiver.work c job = some (.ok worked))
    (stepped : step c sender receiver ⟨[], [], [job], received⟩ a = some t) :
    t = settle ⟨[], [], [job], received⟩ false [] worked := by
  cases a with
  | sender position => cases stepped
  | deliver => cases stepped
  | receiver position =>
      obtain ⟨taken, found, stepped⟩ := Option.bind_eq_some_iff.mp stepped
      rw [takeAt_single found] at stepped
      exact workStep_ok does stepped

variable (carried : Carried c sender receiver packet coded image mode data)
  (pool : receiver.threadPool = some false)
include carried pool

/-- Every step moves the packet one stage on. -/
theorem step_stage {n : Nat} {a : Action} {t : Link}
    (stepped : step c sender receiver (stage packet coded image mode data n) a = some t) :
    n < 7 ∧ t = stage packet coded image mode data (n + 1) := by
  match n with
  | 0 => exact ⟨by decide, step_sender carried.encrypts rfl stepped⟩
  | 1 => exact ⟨by decide, step_sender carried.compresses rfl stepped⟩
  | 2 => exact ⟨by decide, step_sender carried.sends rfl stepped⟩
  | 3 =>
      cases a with
      | sender position => cases stepped
      | deliver =>
          refine ⟨by decide, ?_⟩
          simp only [step, stage, DataHandler.push_running pool] at stepped
          exact (Option.some.inj stepped).symm
      | receiver position => cases stepped
  | 4 => exact ⟨by decide, step_receiver carried.decompresses stepped⟩
  | 5 => exact ⟨by decide, step_receiver carried.decrypts stepped⟩
  | 6 => exact ⟨by decide, step_receiver carried.receives stepped⟩
  | n+7 => cases a <;> cases stepped

/-- Until it has arrived, the packet can move. -/
theorem exists_step {n : Nat} (way : n < 7) :
    ∃ a, step c sender receiver (stage packet coded image mode data n) a =
      some (stage packet coded image mode data (n + 1)) := by
  have works : ∀ {h : DataHandler} {l : Link} {onSender : Bool} {job : Job} {worked : Worked},
      h.work c job = some (.ok worked) →
        workStep c h l onSender job [] = some (l.settle onSender [] worked) := by
    intro h l onSender job worked does
    rw [workStep, does]
  match n with
  | 0 => exact ⟨.sender 0, works carried.encrypts⟩
  | 1 => exact ⟨.sender 0, works carried.compresses⟩
  | 2 => exact ⟨.sender 0, works carried.sends⟩
  | 3 =>
      refine ⟨.deliver, ?_⟩
      simp only [step, stage, DataHandler.push_running pool]
      rfl
  | 4 => exact ⟨.receiver 0, works carried.decompresses⟩
  | 5 => exact ⟨.receiver 0, works carried.decrypts⟩
  | 6 => exact ⟨.receiver 0, works carried.receives⟩
  | n+7 => omega

/-- Induction over the run: after k steps the packet is k stages on. -/
theorem run_stage {n : Nat} {actions : List Action} {l : Link} (way : n ≤ 7)
    (ran : run (step c sender receiver) (stage packet coded image mode data n) actions = some l) :
    n + actions.length ≤ 7 ∧ l = stage packet coded image mode data (n + actions.length) := by
  induction actions generalizing n with
  | nil =>
      cases ran
      exact ⟨way, rfl⟩
  | cons a rest ih =>
      obtain ⟨t, stepped, ran⟩ := run_cons.mp ran
      obtain ⟨less, same⟩ := step_stage carried pool stepped
      rw [same] at ran
      obtain ⟨bound, reached⟩ := ih less ran
      have count : n.succ + rest.length = n + (a :: rest).length := by
        rw [List.length_cons]
        omega
      rw [count] at bound reached
      exact ⟨bound, reached⟩

omit carried pool in
theorem stage_received {n : Nat} (way : n < 7) :
    (stage packet coded image mode data n).received = [] ∧
      ¬ (stage packet coded image mode data n).Quiet := by
  match n with
  | 0 => exact ⟨rfl, fun quiet => (by cases quiet.1)⟩
  | 1 => exact ⟨rfl, fun quiet => (by cases quiet.1)⟩
  | 2 => exact ⟨rfl, fun quiet => (by cases quiet.1)⟩
  | 3 => exact ⟨rfl, fun quiet => (by cases quiet.2.1)⟩
  | 4 => exact ⟨rfl, fun quiet => (by cases quiet.2.2)⟩
  | 5 => exact ⟨rfl, fun quiet => (by cases quiet.2.2)⟩
  | 6 => exact ⟨rfl, fun quiet => (by cases quiet.2.2)⟩
  | n+7 => omega

/-- From any stage on: the packet arrives once, and until then something can run. -/
theorem arrives_from {n : Nat} (way : n ≤ 7) {actions : List Action} {l : Link}
    (ran : run (step c sender receiver) (stage packet coded image mode data n) actions = some l) :
    actions.length ≤ 7 ∧ (l.Quiet → l.received = [(mode.code, data)]) ∧
      (¬ l.Quiet → l.received = [] ∧ ∃ a t, step c sender receiver l a = some t) := by
  obtain ⟨bound, rfl⟩ := run_stage carried pool way ran
  refine ⟨by omega, ?_, ?_⟩
  · intro quiet
    by_cases less : n + actions.length < 7
    · exact absurd quiet (stage_received less).2
    · rw [show n + actions.length = 7 by omega]
      rfl
  · intro busy
    by_cases less : n + actions.length < 7
    · obtain ⟨a, stepped⟩ := exists_step carried pool less
      exact ⟨(stage_received less).1, a, _, stepped⟩
    · rw [show n + actions.length = 7 by omega] at busy
      exact absurd ⟨rfl, rfl, rfl⟩ busy

end

/-- `send` accepts the packet, and whatever runs next, it takes at most seven steps
until `received_data` has been called once with the mode and the data; before that
nothing has been received and some job can run. -/
theorem packet_round_trip {c : Codecs} {paired : c.lz4.Stream → c.lz4.StreamDecode → Prop}
    (faithful : c.lz4.Faithful paired) {sender receiver : DataHandler}
    (matched : Matched c sender receiver) (mode : DataModes)
    (plain : mode = .connection → sender.encryptMode = false) {data : List UInt8}
    (nonempty : data ≠ []) (fits : (DataHandler.packet mode data).length < 2 ^ 63)
    (small : Small c sender (DataHandler.packet mode data)) :
    ∃ job, sender.send mode data = .ok job ∧ ∀ actions l,
      run (step c sender receiver) (sent job) actions = some l →
        actions.length ≤ 7 ∧ (l.Quiet → l.received = [(mode.code, data)]) ∧
        (¬ l.Quiet → l.received = [] ∧ ∃ a t, step c sender receiver l a = some t) := by
  obtain ⟨coded, image, carried, unchanged⟩ := matched.carried faithful mode nonempty fits small
  have pool : sender.threadPool ≠ none := by
    rw [matched.senderPool]
    exact Option.some_ne_none _
  rw [DataHandler.send, if_neg matched.connected, if_neg pool, if_neg nonempty]
  simp only [DataHandler.push_running matched.senderPool]
  by_cases connection : mode = .connection
  · have same := unchanged (plain connection)
    rw [if_pos connection]
    refine ⟨_, rfl, ?_⟩
    intro actions l ran
    rw [← same] at ran
    exact @arrives_from c sender receiver _ coded image mode data carried matched.receiverPool 1
      (by decide) _ _ ran
  · rw [if_neg connection]
    exact ⟨_, rfl, fun actions l ran => @arrives_from c sender receiver _ coded image mode data
      carried matched.receiverPool 0 (by decide) _ _ ran⟩

/-- The stand-in codecs of the examples. -/
def sampleCodecs : Codecs := ⟨.literals, .sample⟩

/-- A confirmed peer with encryption on and the sample key and IV. -/
def encrypted : DataHandler :=
  { DataHandler.connected with
    encryptMode := true
    key := Cipher.sampleKey
    iv := Cipher.sampleIv }

theorem encrypted_matched : Matched sampleCodecs encrypted encrypted where
  senderLive := by decide
  receiverLive := by decide
  connected := by decide
  senderPool := rfl
  receiverPool := rfl
  mode := rfl
  keys := fun _ => ⟨rfl, rfl, by decide, by decide, Cipher.sample_inverts⟩

/-- The message `hi` through AES and LZ4. -/
theorem packet_round_trip_hi :
    ∃ job, encrypted.send .message [104, 105] = .ok job ∧ ∀ actions l,
      run (step sampleCodecs encrypted encrypted) (sent job) actions = some l →
        actions.length ≤ 7 ∧ (l.Quiet → l.received = [(2, [104, 105])]) ∧
        (¬ l.Quiet → l.received = [] ∧ ∃ a t, step sampleCodecs encrypted encrypted l a = some t) := by
  refine packet_round_trip Lz4.literals_faithful encrypted_matched .message (by decide)
    (by decide) (by decide) (small_of_single Lz4.literals_faithful ?_)
  intro coded encrypts
  have same : coded = Cipher.sampleCiphertext := by
    cases encrypts
    rfl
  subst same
  decide

end Link
end CppToolkit.Network
