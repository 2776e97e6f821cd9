import IotAgent.Modbus.Crc

/-!
Modbus operations of the agent as master (`src/modbus/modbus.{h,cc}`).

An operation holds the frame of its request and collects the bytes of the answer until
they are complete; then it checks and decodes them.

* `request`, `writeMultiple`: the two constructors;
* `checkCompleted`: the bytes so far, and whether they are complete;
* `decode`: checks and decoding of a complete answer;
* `receiveModbusFrame`: a chunk of the answer arrives.
-/

namespace IotAgent

/-! ### Registers -/

/-- The registers of an answer: a map from addresses to values, by ascending address. -/
abbrev Registers := List (UInt16 × UInt16)

/-- `std::map::insert`: an address that is there keeps its value. -/
def Registers.insert (k v : UInt16) : Registers → Registers
  | [] => [(k, v)]
  | (k', v') :: l =>
      if k < k' then (k, v) :: (k', v') :: l
      else if k = k' then (k', v') :: l
      else (k', v') :: Registers.insert k v l

/-! ### The operation -/

inductive FunctionCode where
  | readHoldingRegisters
  | presetSingleRegister
  | presetMultipleRegister
  deriving DecidableEq, Repr

/-- The byte of a function code. -/
def FunctionCode.byte : FunctionCode → UInt8
  | readHoldingRegisters => 0x03
  | presetSingleRegister => 0x06
  | presetMultipleRegister => 0x10

structure Modbus where
  modbusFrame : List UInt8
  modbusFrameResponse : List UInt8
  slaveAddress : UInt8
  functionCode : FunctionCode
  addressData : UInt16
  numberOfOrValue : UInt16
  valuesToWrite : List UInt16
  values : Registers
  finished : Bool
  completed : Bool
  confirmed : Bool
  needBeConfirmed : Bool
  deriving DecidableEq, Repr

namespace Modbus

/-- The constructor of requests with a number or a value. -/
def request (slaveAddr : UInt8) (functionCode : FunctionCode) (addressData numberOf : UInt16) :
    Modbus where
  modbusFrame := withCrc [slaveAddr, functionCode.byte, hiByte addressData, loByte addressData,
    hiByte numberOf, loByte numberOf]
  modbusFrameResponse := []
  slaveAddress := slaveAddr
  functionCode := functionCode
  addressData := addressData
  numberOfOrValue := numberOf
  valuesToWrite := []
  values := []
  finished := false
  completed := false
  confirmed := true
  needBeConfirmed := false

/-- The constructor for writing multiple registers. The number of values is cut to two
bytes, the number of bytes to one. -/
def writeMultiple (slaveAddr : UInt8) (functionCode : FunctionCode) (addressData : UInt16)
    (values : List UInt16) (confirmed : Bool) : Modbus where
  modbusFrame := withCrc ([slaveAddr, functionCode.byte, hiByte addressData, loByte addressData,
    UInt8.ofNat (values.length >>> 8), UInt8.ofNat values.length, UInt8.ofNat (values.length * 2)]
    ++ values.flatMap fun v => [hiByte v, loByte v])
  modbusFrameResponse := []
  slaveAddress := slaveAddr
  functionCode := functionCode
  addressData := addressData
  numberOfOrValue := 0
  valuesToWrite := values
  values := []
  finished := false
  completed := false
  confirmed := !confirmed
  needBeConfirmed := confirmed

/-! ### Completeness -/

/-- The chunk is appended to the bytes so far; are they complete? The echo of a write that
must be confirmed is taken away again. -/
def checkCompleted (m : Modbus) (frame : List UInt8) : Bool × Modbus :=
  let response := m.modbusFrameResponse ++ frame
  let m := { m with modbusFrameResponse := response }
  match m.functionCode with
  | .readHoldingRegisters =>
      match response[2]? with
      | some bytes => (response.length - 2 == bytes.toNat + 3, m)
      | none => (false, m)
  | .presetSingleRegister =>
      -- echo of the request, same size
      (response.length == m.modbusFrame.length, m)
  | .presetMultipleRegister =>
      if m.needBeConfirmed && !m.confirmed then
        if response.length = m.modbusFrame.length then
          if response = m.modbusFrame then
            (false, { m with confirmed := true, modbusFrameResponse := [] })
          else (true, m)
        else (decide (response.length > m.modbusFrame.length), m)
      else (decide (response.length ≥ 8), m)

/-! ### Decoding -/

/-- The values of `i` in the loop over the registers of an answer. -/
def registerPositions (limit i : ℕ) : List ℕ :=
  if i < limit then i :: registerPositions limit (i + 2) else []
termination_by limit - i

/-- The loop over the registers: the bytes at `i` and `i + 1` are the value of the next
address. The flag is `false` when `at` throws. -/
def readRegisters (response : List UInt8) (addressData : UInt16) :
    List ℕ → UInt16 → Registers → Bool × Registers
  | [], _, values => (true, values)
  | i :: positions, numReg, values =>
      match response[i]?, response[i + 1]? with
      | some hi, some lo =>
          readRegisters response addressData positions (numReg + 1)
            (values.insert (addressData + (numReg + 1)) (word hi lo))
      | _, _ => (false, values)

/-- The checks of a complete answer and its values: `frame_ok` and the values. -/
def decode (m : Modbus) : Bool × Registers :=
  let response := m.modbusFrameResponse
  match response with
  | slave :: code :: b2 :: rest =>
      if slave ≠ m.slaveAddress ∨ code ≠ m.functionCode.byte ∨ checkCrc response = false then
        (false, m.values)
      else
        match m.functionCode with
        | .readHoldingRegisters =>
            -- additional check: the last byte must be before the CRC
            if response.length - 2 ≠ b2.toNat + 3 then (false, m.values)
            else
              readRegisters response m.addressData (registerPositions (b2.toNat + 3) 3) 0 m.values
        | .presetSingleRegister =>
            match rest with
            | b3 :: b4 :: b5 :: _ =>
                (word b2 b3 == m.addressData && word b4 b5 == m.numberOfOrValue, m.values)
            | _ => (false, m.values)
        | .presetMultipleRegister =>
            if !m.confirmed then (false, m.values)
            else
              match rest with
              | b3 :: b4 :: b5 :: _ =>
                  (word b2 b3 == m.addressData && (word b4 b5).toNat == m.valuesToWrite.length
                    && response.length == 8, m.values)
              | _ => (false, m.values)
  | _ => (false, m.values)

/-! ### A chunk arrives -/

/-- Receive a chunk of the answer: `frame_ok` and the operation afterwards. -/
def receiveModbusFrame (m : Modbus) (mbMsg : List UInt8) : Bool × Modbus :=
  if m.modbusFrame.length = 0 then
    (false, { m with finished := true, completed := true })
  else
    let (completed, m) := m.checkCompleted mbMsg
    let m := { m with completed }
    if completed then
      -- a bad frame finishes the operation, as a good one does
      let (frameOk, values) := m.decode
      (frameOk, { m with values, finished := true })
    else (true, m)

end Modbus

end IotAgent
