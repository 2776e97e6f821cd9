import Mathlib.Algebra.Group.Int.Defs
import Mathlib.Algebra.Group.Nat.Defs
import IotAgent.Lib.Runs

/-!
The buffer of messages that a subscription has received
(`src/esp/plugins/input_mqtt/ESP_MqttBuffer.{h,cpp}`).

A message is serialized when it comes in: its topic, a delimiter, its payload. A reader gets the
bytes of the first message, all of them or as many as it asks for, and the rest with the next
call. A counter, an int, says how many bytes are not read yet.

* `MqttMsg`, `MqttBuffer`: the messages with their offsets, and the counter, with the operations
  of the buffer;
* `MqttChannel`: the buffer with what was added and what was read so far; `takeFirst` is the
  reader that gets the first message and deletes it;
* `Fifo`: the bytes read are a prefix of those added, and the counter has the rest;
* `fifo_iff_room`: it holds throughout a run exactly if no message makes the counter overflow.
-/

namespace IotAgent

namespace Esp

/-! ### Messages -/

/-- A message as the library delivers it; the library takes no packet that is too long. -/
structure MosquittoMessage where
  topic : List UInt8
  payload : List UInt8
  fits : topic.length + payload.length + 2 < 2 ^ 31

/-- `ESP_MQTT_DELIM_END`. -/
def mqttDelimEnd : List UInt8 := [47, 47]

/-- The bytes of a C string. -/
def cString (s : List UInt8) : List UInt8 :=
  s.takeWhile (· ≠ 0)

/-- What a message is serialized to. -/
def MosquittoMessage.serialized (m : MosquittoMessage) : List UInt8 :=
  cString m.topic ++ mqttDelimEnd ++ m.payload

/-- A serialized message, with the offset of what is not read yet. -/
structure MqttMsg where
  buffSerialized : List UInt8
  readOffset : ℕ
  within : readOffset ≤ buffSerialized.length

namespace MqttMsg

/-- `ESP_MqttMsg`. -/
def ofMessage (m : MosquittoMessage) : MqttMsg :=
  ⟨m.serialized, 0, Nat.zero_le _⟩

variable (m : MqttMsg)

def getTotalLength : ℕ :=
  m.buffSerialized.length

def getRemainingLength : ℕ :=
  m.buffSerialized.length - m.readOffset

/-- The bytes from the offset on, as many as `getRemainingLength` says. -/
def getBufferToBeCopied : List UInt8 :=
  m.buffSerialized.drop m.readOffset

def moveOffset (nbytes : ℕ) (h : nbytes ≤ m.getRemainingLength) : MqttMsg where
  __ := m
  readOffset := m.readOffset + nbytes
  within := by
    have := m.within
    rw [getRemainingLength] at h
    omega

@[simp] lemma getBufferToBeCopied_length :
    m.getBufferToBeCopied.length = m.getRemainingLength :=
  List.length_drop

@[simp] lemma getBufferToBeCopied_ofMessage (msg : MosquittoMessage) :
    (ofMessage msg).getBufferToBeCopied = msg.serialized := rfl

lemma getBufferToBeCopied_moveOffset {nbytes : ℕ} (h : nbytes ≤ m.getRemainingLength) :
    (m.moveOffset nbytes h).getBufferToBeCopied = m.getBufferToBeCopied.drop nbytes :=
  List.drop_drop.symm

end MqttMsg

/-! ### The buffer -/

structure MqttBuffer where
  qMqttMsg : List MqttMsg
  unreadBytes : Int32

namespace MqttBuffer

def empty : MqttBuffer :=
  ⟨[], 0⟩

variable (b : MqttBuffer)

def addMsg (msg : MqttMsg) : MqttBuffer where
  qMqttMsg := b.qMqttMsg ++ [msg]
  unreadBytes := b.unreadBytes + Int32.ofNat msg.getTotalLength

def decreaseUnreadBytes (bytes : ℕ) : MqttBuffer :=
  { b with unreadBytes := b.unreadBytes - Int32.ofNat bytes }

def removeMsg : MqttBuffer :=
  { b with qMqttMsg := b.qMqttMsg.tail }

/-- The bytes of the first message, none if there is no message. -/
def getFirstMqttMessage : List UInt8 :=
  match b.qMqttMsg with
  | [] => []
  | msg :: _ => msg.getBufferToBeCopied

/-- `deleteFirstMessage`, which no caller uses without a message. -/
def deleteFirstMessage : MqttBuffer :=
  match b.qMqttMsg with
  | [] => b
  | msg :: _ => (b.decreaseUnreadBytes msg.getRemainingLength).removeMsg

/-- `getSerialized`, with the bytes that it copies. -/
def getSerialized (lenRead : ℕ) : MqttBuffer × List UInt8 :=
  match b.qMqttMsg with
  | [] => (b, [])
  | msg :: rest =>
      let nBuffLen := if msg.getRemainingLength > lenRead then lenRead else msg.getRemainingLength
      let b := b.decreaseUnreadBytes nBuffLen
      let buffOutput := msg.getBufferToBeCopied.take nBuffLen
      if h : nBuffLen < msg.getRemainingLength then
        ({ b with qMqttMsg := msg.moveOffset nBuffLen (Nat.le_of_lt h) :: rest }, buffOutput)
      else (b.removeMsg, buffOutput)

/-- The bytes that are not read yet. -/
def unread : List UInt8 :=
  b.qMqttMsg.flatMap MqttMsg.getBufferToBeCopied

/-- The counter, as far as an int has it, is the number of bytes not read yet. -/
def Counted : Prop :=
  b.unreadBytes = Int32.ofNat b.unread.length

variable {b} {lenRead : ℕ}

/-! ### What the operations do to the bytes -/

lemma unread_addMsg (msg : MosquittoMessage) :
    (b.addMsg (MqttMsg.ofMessage msg)).unread = b.unread ++ msg.serialized := by
  simp [unread, addMsg]

lemma unread_of_cons {msg : MqttMsg} {rest : List MqttMsg} (h : b.qMqttMsg = msg :: rest) :
    b.unread = msg.getBufferToBeCopied ++ rest.flatMap MqttMsg.getBufferToBeCopied := by
  rw [unread, h, List.flatMap_cons]

/-- A call that asks for less than the first message has. -/
lemma getSerialized_of_lt {msg : MqttMsg} {rest : List MqttMsg} (hq : b.qMqttMsg = msg :: rest)
    (h : lenRead < msg.getRemainingLength) :
    b.getSerialized lenRead =
      ({ qMqttMsg := msg.moveOffset lenRead (Nat.le_of_lt h) :: rest
         unreadBytes := b.unreadBytes - Int32.ofNat lenRead },
        msg.getBufferToBeCopied.take lenRead) := by
  simp [getSerialized, hq, h, decreaseUnreadBytes]

/-- A call that gets all that the first message has. -/
lemma getSerialized_of_le {msg : MqttMsg} {rest : List MqttMsg} (hq : b.qMqttMsg = msg :: rest)
    (h : msg.getRemainingLength ≤ lenRead) :
    b.getSerialized lenRead =
      ({ qMqttMsg := rest
         unreadBytes := b.unreadBytes - Int32.ofNat msg.getRemainingLength },
        msg.getBufferToBeCopied) := by
  have hnot : ¬ lenRead < msg.getRemainingLength := Nat.not_lt_of_le h
  simp [getSerialized, hq, hnot, decreaseUnreadBytes, removeMsg,
    List.take_of_length_le (Nat.le_of_eq msg.getBufferToBeCopied_length)]

/-- What a reader takes comes off the front, and the counter goes down by it. -/
structure Takes (b b' : MqttBuffer) (read : List UInt8) : Prop where
  bytes : read ++ b'.unread = b.unread
  counter : b'.unreadBytes = b.unreadBytes - Int32.ofNat read.length

lemma Takes.counted {b' : MqttBuffer} {read : List UInt8} (h : Takes b b' read)
    (hb : b.Counted) : b'.Counted := by
  have hlen := congrArg List.length h.bytes
  rw [List.length_append] at hlen
  have hrest : b'.unread.length = b.unread.length - read.length := by omega
  rw [Counted, h.counter, hb, hrest, Int32.ofNat_sub _ _ (by omega)]

lemma takes_getSerialized :
    Takes b (b.getSerialized lenRead).1 (b.getSerialized lenRead).2 := by
  cases hq : b.qMqttMsg with
  | nil =>
      have hnone : b.getSerialized lenRead = (b, []) := by simp [getSerialized, hq]
      rw [hnone]
      exact ⟨rfl, (Int32.sub_zero _).symm⟩
  | cons msg rest =>
      by_cases h : lenRead < msg.getRemainingLength
      · rw [getSerialized_of_lt hq h]
        refine ⟨?_, ?_⟩
        · rw [unread_of_cons hq, unread_of_cons rfl, MqttMsg.getBufferToBeCopied_moveOffset,
            ← List.append_assoc, List.take_append_drop]
        · rw [List.length_take, MqttMsg.getBufferToBeCopied_length,
            Nat.min_eq_left (Nat.le_of_lt h)]
      · rw [getSerialized_of_le hq (Nat.le_of_not_lt h)]
        refine ⟨(unread_of_cons hq).symm, ?_⟩
        rw [MqttMsg.getBufferToBeCopied_length]

lemma takes_deleteFirstMessage : Takes b b.deleteFirstMessage b.getFirstMqttMessage := by
  cases hq : b.qMqttMsg with
  | nil =>
      have hsame : b.deleteFirstMessage = b := by simp [deleteFirstMessage, hq]
      have hnone : b.getFirstMqttMessage = [] := by simp [getFirstMqttMessage, hq]
      rw [hsame, hnone]
      exact ⟨rfl, (Int32.sub_zero _).symm⟩
  | cons msg rest =>
      have hdelete : b.deleteFirstMessage =
          ⟨rest, b.unreadBytes - Int32.ofNat msg.getRemainingLength⟩ := by
        simp [deleteFirstMessage, hq, removeMsg, decreaseUnreadBytes]
      have hfirst : b.getFirstMqttMessage = msg.getBufferToBeCopied := by
        simp [getFirstMqttMessage, hq]
      rw [hdelete, hfirst]
      refine ⟨(unread_of_cons hq).symm, ?_⟩
      rw [MqttMsg.getBufferToBeCopied_length]

lemma counted_empty : empty.Counted := rfl

lemma Counted.addMsg (hb : b.Counted) (msg : MosquittoMessage) :
    (b.addMsg (MqttMsg.ofMessage msg)).Counted := by
  rw [Counted, unread_addMsg, List.length_append, Int32.ofNat_add, ← hb]
  rfl

/-- An int has the number of bytes if it is small enough. -/
lemma Counted.toInt_iff (hb : b.Counted) :
    b.unreadBytes.toInt = b.unread.length ↔ b.unread.length < 2 ^ 31 := by
  rw [hb]
  constructor
  · intro h
    have hlt := (Int32.ofNat b.unread.length).toInt_lt
    omega
  · exact Int32.toInt_ofNat_of_lt

end MqttBuffer

/-! ### Runs -/

/-- A buffer, with the bytes that were added and those that were read. -/
structure MqttChannel where
  buffer : MqttBuffer
  added : List UInt8
  read : List UInt8

/-- What happens to a buffer. -/
inductive MqttOp where
  | addMsg (m : MosquittoMessage)
  | getSerialized (lenRead : ℕ)
  | takeFirst

namespace MqttChannel

def empty : MqttChannel :=
  ⟨MqttBuffer.empty, [], []⟩

variable (c : MqttChannel)

/-- The reader that gets the first message, and deletes it if it has got something. -/
def takeFirst : MqttChannel :=
  let data := c.buffer.getFirstMqttMessage
  if 0 < data.length then
    { c with buffer := c.buffer.deleteFirstMessage, read := c.read ++ data }
  else c

def apply : MqttOp → MqttChannel
  | .addMsg m =>
      { c with
        buffer := c.buffer.addMsg (MqttMsg.ofMessage m)
        added := c.added ++ m.serialized }
  | .getSerialized lenRead =>
      let (buffer, buffOut) := c.buffer.getSerialized lenRead
      { c with buffer, read := c.read ++ buffOut }
  | .takeFirst => c.takeFirst

/-- The channel after a run. -/
def after (ops : List MqttOp) : MqttChannel :=
  Run.run apply empty ops

/-- The bytes read are a prefix of those added, and the counter has what is not read. -/
structure Fifo : Prop where
  bytes : c.read <+: c.added
  counter : c.buffer.unreadBytes.toInt = c.added.length - c.read.length

/-- A message that is added leaves fewer bytes unread than an int can count. -/
def Room : MqttOp → Prop
  | .addMsg m => c.buffer.unread.length + m.serialized.length < 2 ^ 31
  | _ => True

/-- What is in the buffer is what was added and not read. -/
structure Sound : Prop where
  bytes : c.read ++ c.buffer.unread = c.added
  counted : c.buffer.Counted

variable {c} {op : MqttOp}

lemma sound_empty : empty.Sound :=
  ⟨rfl, MqttBuffer.counted_empty⟩

/-- A reader that takes bytes. -/
lemma Sound.takes {buffer : MqttBuffer} {data : List UInt8} (hc : c.Sound)
    (h : MqttBuffer.Takes c.buffer buffer data) :
    Sound { c with buffer, read := c.read ++ data } :=
  ⟨by rw [List.append_assoc, h.bytes, hc.bytes], h.counted hc.counted⟩

/-- One step. -/
lemma Sound.apply (hc : c.Sound) : (c.apply op).Sound := by
  cases op with
  | addMsg m =>
      refine ⟨?_, hc.counted.addMsg m⟩
      show c.read ++ (c.buffer.addMsg (MqttMsg.ofMessage m)).unread = c.added ++ m.serialized
      rw [MqttBuffer.unread_addMsg, ← List.append_assoc, hc.bytes]
  | getSerialized lenRead => exact hc.takes MqttBuffer.takes_getSerialized
  | takeFirst =>
      rw [MqttChannel.apply, takeFirst]
      split
      · exact hc.takes MqttBuffer.takes_deleteFirstMessage
      · exact hc

lemma Sound.run (hc : c.Sound) (ops : List MqttOp) : (Run.run MqttChannel.apply c ops).Sound := by
  induction ops generalizing c with
  | nil => exact hc
  | cons op ops ih => exact ih hc.apply

/-- Sound is a fifo as long as the counter does not overflow. -/
lemma Sound.fifo_iff (hc : c.Sound) : c.Fifo ↔ c.buffer.unread.length < 2 ^ 31 := by
  have hlen := congrArg List.length hc.bytes
  rw [List.length_append] at hlen
  have hcount : (c.added.length : Int) - c.read.length = c.buffer.unread.length := by omega
  rw [← hc.counted.toInt_iff, ← hcount]
  exact ⟨Fifo.counter, fun h => ⟨⟨_, hc.bytes⟩, h⟩⟩

/-- One step leaves a fifo exactly if there is room. -/
lemma Sound.fifo_apply_iff (hc : c.Sound) (hf : c.Fifo) : (c.apply op).Fifo ↔ c.Room op := by
  have hlt := hc.fifo_iff.mp hf
  have htakes : ∀ {b : MqttBuffer} {data : List UInt8}, MqttBuffer.Takes c.buffer b data →
      b.unread.length < 2 ^ 31 := by
    intro b data h
    have hlen := congrArg List.length h.bytes
    rw [List.length_append] at hlen
    omega
  rw [hc.apply.fifo_iff]
  cases op with
  | addMsg m =>
      show (c.buffer.addMsg (MqttMsg.ofMessage m)).unread.length < 2 ^ 31 ↔ _
      rw [MqttBuffer.unread_addMsg, List.length_append]
      rfl
  | getSerialized lenRead => exact iff_of_true (htakes MqttBuffer.takes_getSerialized) trivial
  | takeFirst =>
      refine iff_of_true ?_ trivial
      rw [MqttChannel.apply, takeFirst]
      split
      · exact htakes MqttBuffer.takes_deleteFirstMessage
      · exact hlt

/-- **The buffer**: the bytes read are always a prefix of those added, and whatever is left is in
the buffer; the counter has its number throughout a run exactly if there is room for every
message that comes in. -/
theorem fifo_iff_room (ops : List MqttOp) :
    ((after ops).read ++ (after ops).buffer.unread = (after ops).added) ∧
      ((∀ n, (after (ops.take n)).Fifo) ↔ Run.Always apply Room empty ops) := by
  have hsound : ∀ ops, (after ops).Sound := fun ops => sound_empty.run ops
  refine ⟨(hsound ops).bytes, ?_⟩
  have hempty : empty.Sound ∧ empty.Fifo :=
    ⟨sound_empty, sound_empty.fifo_iff.mpr (by decide)⟩
  have hstep : ∀ (c : MqttChannel) op, (c.Sound ∧ c.Fifo) → True →
      (((c.apply op).Sound ∧ (c.apply op).Fifo) ↔ c.Room op) := fun c op hc _ =>
    (and_iff_right hc.1.apply).trans (hc.1.fifo_apply_iff hc.2)
  rw [← Run.forall_run_iff hstep hempty Run.always_true]
  exact forall_congr' fun n => (and_iff_right (hsound (ops.take n))).symm

/-! ### Too much for the counter -/

/-- A packet with a topic of one character. -/
def zeros (n : ℕ) (h : n + 3 < 2 ^ 31) : MosquittoMessage where
  topic := [116]
  payload := List.replicate n 0
  fits := by
    rw [List.length_replicate, List.length_singleton]
    omega

lemma length_zeros {n : ℕ} (h : n + 3 < 2 ^ 31) : (zeros n h).serialized.length = n + 3 := by
  simp [MosquittoMessage.serialized, zeros, mqttDelimEnd, cString]

/-- Messages that nobody reads. -/
lemma added_replicate (m : MosquittoMessage) (c : MqttChannel) (n : ℕ) :
    (Run.run apply c (List.replicate n (.addMsg m))).added.length =
      c.added.length + n * m.serialized.length ∧
    (Run.run apply c (List.replicate n (.addMsg m))).read = c.read := by
  induction n generalizing c with
  | zero => exact ⟨by simp [Run.run], rfl⟩
  | succ n ih =>
      obtain ⟨hadded, hread⟩ := ih (c.apply (.addMsg m))
      refine ⟨?_, hread⟩
      have hnext : (c.apply (.addMsg m)).added.length =
          c.added.length + m.serialized.length := List.length_append
      rw [List.replicate_succ, Run.run, List.foldl_cons, ← Run.run, hadded, hnext,
        Nat.succ_mul]
      omega

/-- Nine packets of the greatest length make the counter negative. -/
theorem not_fifo_zeros :
    ¬ (after (List.replicate 9 (.addMsg (zeros 268435450 (by decide))))).Fifo := by
  intro hf
  obtain ⟨hadded, hread⟩ := added_replicate (zeros 268435450 (by decide)) empty 9
  have hlt := (after (List.replicate 9 (.addMsg (zeros 268435450 (by decide))))).buffer
    |>.unreadBytes.toInt_lt
  rw [hf.counter, after, hadded, hread, length_zeros] at hlt
  simp [empty] at hlt

end MqttChannel

end Esp

end IotAgent
