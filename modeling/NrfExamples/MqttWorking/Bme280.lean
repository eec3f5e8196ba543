import NrfExamples.Library.Word
import NrfExamples.MqttWorking.Errno

/-!
# The weather sensor

The driver `bme280.c`: register transfers over SPI, the calibration values, the compensation of the
raw readings and the two functions that the program calls. The arithmetic is that of the C types,
with `int` and `long` of 32 bits and overflow taken as wrap-around; a division by zero gives no
result. Which transfers succeed and what they receive are inputs, and every transfer is logged.
-/

namespace NrfExamples.MqttWorking.Bme280

open Memory Word

/-! ## Registers -/

def ctrlhum : Byte := 0xF2

def ctrlmeas : Byte := 0xF4

def calib00 : Byte := 0x88

def calib24 : Byte := 0xA1

def calib26 : Byte := 0xE1

def regId : Byte := 0xD0

def pressmsb : Byte := 0xF7

def regStatus : Byte := 0xF3

def bme280ChipId : Byte := 0x60

def statusMeasuring : Byte := 0x08

def statusImUpdate : Byte := 0x01

/-! ## Transfers -/

/-- The outcomes of the transfers, by their number counted from zero. -/
structure Spi where
  succeeds : ℕ → Bool
  /-- The byte received at a position of a transfer that sends the given bytes. -/
  receive : ℕ → List Byte → ℕ → Byte

structure Transfer where
  tx : List Byte
  ok : Bool
deriving DecidableEq

/-- The bytes sent to read from a register. -/
def readRequest (reg : Byte) (size : ℕ) : List Byte := (reg ||| 0x80) :: List.replicate size 0xFF

/-- The bytes sent to write a register. -/
def writeRequest (reg value : Byte) : List Byte := [reg &&& 0x7F, value]

/-- The bytes that a transfer receives behind the first one, which is a dummy. -/
def received (spi : Spi) (reg : Byte) (size number : ℕ) : List Byte :=
  (List.range size).map fun position ↦ spi.receive number (readRequest reg size) (position + 1)

def bme280RegRead (spi : Spi) (reg : Byte) (size : ℕ) (log : List Transfer) :
    List Transfer × Except ℤ (List Byte) :=
  (log ++ [⟨readRequest reg size, spi.succeeds log.length⟩],
    if spi.succeeds log.length then .ok (received spi reg size log.length)
    else .error (-eio))

def bme280RegWrite (spi : Spi) (reg value : Byte) (log : List Transfer) : List Transfer × ℤ :=
  (log ++ [⟨writeRequest reg value, spi.succeeds log.length⟩],
    if spi.succeeds log.length then 0 else -eio)

/-! ## Driver data -/

/-- The compensation parameters. -/
structure Compensation where
  digT1 : UInt16
  digT2 : Int16
  digT3 : Int16
  digP1 : UInt16
  digP2 : Int16
  digP3 : Int16
  digP4 : Int16
  digP5 : Int16
  digP6 : Int16
  digP7 : Int16
  digP8 : Int16
  digP9 : Int16
  digH1 : UInt8
  digH2 : Int16
  digH3 : UInt8
  digH4 : Int16
  digH5 : Int16
  digH6 : Int8
deriving DecidableEq, Inhabited

structure CustomBme280Data extends Compensation where
  compTemp : Int32
  compPress : UInt32
  compHumidity : UInt32
  tFine : Int32
  chipId : Byte
deriving DecidableEq, Inhabited

/-! ## Compensation -/

def bme280CompensateTemp (data : CustomBme280Data) (adcTemp : Int32) : CustomBme280Data :=
  let digT1 := data.digT1.toUInt32.toInt32
  let var1 := (((adcTemp >>> 3) - (digT1 <<< 1)) * data.digT2.toInt32) >>> 11
  let var2 := (((((adcTemp >>> 4) - digT1) * ((adcTemp >>> 4) - digT1)) >>> 12) *
    data.digT3.toInt32) >>> 14
  let tFine := var1 + var2
  { data with
    tFine := tFine
    compTemp := (tFine * 5 + 128) >>> 8 }

/-- Conversion to `unsigned long`. -/
def unsignedLong (value : Int64) : UInt32 := value.toUInt64.toUInt32

/-- Division of an `int64_t` by an `unsigned long`. -/
def divide (value : Int64) (divisor : UInt32) : Option Int64 :=
  if divisor = 0 then none else some (value / divisor.toUInt64.toInt64)

/-- The `var1` that the guard compares with zero. -/
def pressureVar1 (data : CustomBme280Data) : Int64 :=
  let var1 := (data.tFine.toInt64 >>> 1) - 64000
  let var1 := ((data.digP3.toInt64 * (((var1 >>> 2) * (var1 >>> 2)) >>> 13)) >>> 3) +
    ((data.digP2.toInt64 * var1) >>> 1)
  let var1 := var1 >>> 18
  ((32768 + var1) * data.digP1.toUInt64.toInt64) >>> 15

/-- The `var2` that is subtracted from the raw pressure. -/
def pressureVar2 (data : CustomBme280Data) : Int64 :=
  let var1 := (data.tFine.toInt64 >>> 1) - 64000
  let var2 := (((var1 >>> 2) * (var1 >>> 2)) >>> 11) * data.digP6.toInt64
  let var2 := var2 + ((var1 * data.digP5.toInt64) <<< 1)
  (var2 >>> 2) + (data.digP4.toInt64 <<< 16)

/-- The statements behind the division. -/
def finishPressure (data : CustomBme280Data) (p : Int64) : CustomBme280Data :=
  let var1 := data.digP9.toInt64 * (((p >>> 3) * (p >>> 3)) >>> 13)
  let var1 := var1 >>> 12
  let var2 := (p >>> 2) * data.digP8.toInt64
  let var2 := var2 >>> 13
  let p := p + ((var1 + var2 + data.digP7.toInt64) >>> 4)
  { data with compPress := p.toUInt64.toUInt32 }

def bme280CompensatePress (data : CustomBme280Data) (adcPress : Int32) :
    Option CustomBme280Data :=
  let var1 := pressureVar1 data
  let var2 := pressureVar2 data
  if var1 = 0 then some { data with compPress := 0 }
  else
    let p := ((1048576 - adcPress).toUInt32.toUInt64.toInt64 - (var2 >>> 12)) * 3125
    if p < 0x80000000 then (divide (p <<< 1) (unsignedLong var1)).map (finishPressure data)
    else (divide p (unsignedLong var1)).map fun p ↦ finishPressure data (p * 2)

def bme280CompensateHumidity (data : CustomBme280Data) (adcHum : Int32) : CustomBme280Data :=
  let h := data.tFine - 76800
  let h := ((((adcHum <<< 14) - (data.digH4.toInt32 <<< 20) - (data.digH5.toInt32 * h)) + 16384)
      >>> 15) *
    (((((((h * data.digH6.toInt32) >>> 10) * (((h * data.digH3.toUInt32.toInt32) >>> 11) + 32768))
      >>> 10) + 2097152) * data.digH2.toInt32 + 8192) >>> 14)
  let h := h - (((((h >>> 15) * (h >>> 15)) >>> 7) * data.digH1.toUInt32.toInt32) >>> 4)
  let h := if h < 0 then 0 else if h > 419430400 then 419430400 else h
  { data with compHumidity := (h >>> 12).toUInt32 }

/-! ## Reading a sample -/

/-- The polls of the status register. With too little fuel the loop has not ended. -/
def bme280WaitUntilReady (spi : Spi) : ℕ → List Transfer → Option (List Transfer × ℤ)
  | 0, _ => none
  | fuel + 1, log =>
      match bme280RegRead spi regStatus 1 log with
      | (log, .error err) => some (log, err)
      | (log, .ok status) =>
          if status.getD 0 0 &&& (statusMeasuring ||| statusImUpdate) ≠ 0 then
            bme280WaitUntilReady spi fuel log
          else some (log, 0)

/-- The log, the driver data and the return value behind a call. -/
structure Returned where
  log : List Transfer
  data : CustomBme280Data
  value : ℤ

/-- The promotion of a byte to `int`. -/
def promote (byte : Byte) : Int32 := Int32.ofBitVec (byte.setWidth 32)

/-- The twenty bits of a raw reading in three bytes of a buffer. -/
def rawReading (buf : List Byte) (start : ℕ) : Int32 :=
  (promote (buf.getD start 0) <<< 12) ||| (promote (buf.getD (start + 1) 0) <<< 4) |||
    (promote (buf.getD (start + 2) 0) >>> 4)

/-- The compensated values of a buffer. -/
def compensate (data : CustomBme280Data) (buf : List Byte) : Option CustomBme280Data :=
  let adcPress := rawReading buf 0
  let adcTemp := rawReading buf 3
  let adcHum := (promote (buf.getD 6 0) <<< 8) ||| promote (buf.getD 7 0)
  (bme280CompensatePress (bme280CompensateTemp data adcTemp) adcPress).map fun data ↦
    bme280CompensateHumidity data adcHum

/-- The buffer has the given contents before it is read. -/
def customBme280SampleFetch (spi : Spi) (fuel : ℕ) (buf : List Byte) (data : CustomBme280Data) :
    Option Returned :=
  (bme280WaitUntilReady spi fuel []).bind fun (log, err) ↦
    let (log, buf) :=
      if err = 0 then
        match bme280RegRead spi pressmsb 8 log with
        | (log, .ok bytes) => (log, bytes)
        | (log, .error _) => (log, buf)
      else (log, buf)
    -- From here on the error is not looked at any more.
    (compensate data buf).map fun data ↦ ⟨log, data, 0⟩

/-! ## Initialisation -/

/-- A word of the little-endian buffer. -/
def wordAt (bytes : List Byte) (index : ℕ) : BitVec 16 :=
  joinBits (bytes.getD (2 * index + 1) 0) (bytes.getD (2 * index) 0)

/-- The values of the first calibration block. -/
def storeCalib00 (data : CustomBme280Data) (buf : List Byte) : CustomBme280Data :=
  { data with
    digT1 := .ofBitVec (wordAt buf 0)
    digT2 := .ofBitVec (wordAt buf 1)
    digT3 := .ofBitVec (wordAt buf 2)
    digP1 := .ofBitVec (wordAt buf 3)
    digP2 := .ofBitVec (wordAt buf 4)
    digP3 := .ofBitVec (wordAt buf 5)
    digP4 := .ofBitVec (wordAt buf 6)
    digP5 := .ofBitVec (wordAt buf 7)
    digP6 := .ofBitVec (wordAt buf 8)
    digP7 := .ofBitVec (wordAt buf 9)
    digP8 := .ofBitVec (wordAt buf 10)
    digP9 := .ofBitVec (wordAt buf 11) }

/-- The one byte between the blocks is received in its field. -/
def storeCalib24 (data : CustomBme280Data) (bytes : List Byte) : CustomBme280Data :=
  { data with digH1 := .ofBitVec (bytes.getD 0 0) }

/-- The values of the last calibration block. -/
def storeCalib26 (data : CustomBme280Data) (hbuf : List Byte) : CustomBme280Data :=
  let byte (index : ℕ) : Byte := hbuf.getD index 0
  { data with
    digH2 := ((promote (byte 1) <<< 8) ||| promote (byte 0)).toInt16
    digH3 := .ofBitVec (byte 2)
    digH4 := ((promote (byte 3) <<< 4) ||| (promote (byte 4) &&& (0x0F : Int32))).toInt16
    digH5 := (((promote (byte 4) >>> 4) &&& (0x0F : Int32)) ||| (promote (byte 5) <<< 4)).toInt16
    digH6 := .ofBitVec (byte 6) }

def bme280ReadCompensation (spi : Spi) (data : CustomBme280Data) (log : List Transfer) : Returned :=
  match bme280RegRead spi calib00 24 log with
  | (log, .error err) => ⟨log, data, err⟩
  | (log, .ok buf) =>
      let data := storeCalib00 data buf
      match bme280RegRead spi calib24 1 log with
      | (log, .error err) => ⟨log, data, err⟩
      | (log, .ok bytes) =>
          let data := storeCalib24 data bytes
          match bme280RegRead spi calib26 7 log with
          | (log, .error err) => ⟨log, data, err⟩
          | (log, .ok hbuf) => ⟨log, storeCalib26 data hbuf, 0⟩

/-- A register write behind steps that may have failed. -/
def writeIfNoError (spi : Spi) (reg value : Byte) (state : Returned) : Returned :=
  if state.value = 0 then
    let written := bme280RegWrite spi reg value state.log
    ⟨written.1, state.data, written.2⟩
  else state

/-- The steps of the initialisation behind the chip id. -/
def configure (spi : Spi) (data : CustomBme280Data) (waited : List Transfer × ℤ) : Returned :=
  let state : Returned :=
    if waited.2 = 0 then bme280ReadCompensation spi data waited.1
    else ⟨waited.1, data, waited.2⟩
  writeIfNoError spi ctrlmeas 0x93 (writeIfNoError spi ctrlhum 0x04 state)

def customBme280Init (spi : Spi) (fuel : ℕ) (data : CustomBme280Data) : Option Returned :=
  match bme280RegRead spi regId 1 [] with
  | (log, .error _) => some ⟨log, data, -enotsup⟩
  | (log, .ok bytes) =>
      let data := { data with chipId := bytes.getD 0 0 }
      if data.chipId ≠ bme280ChipId then some ⟨log, data, -enotsup⟩
      else
        (bme280WaitUntilReady spi fuel log).map fun waited ↦
          -- The error of the chain is not returned.
          { configure spi data waited with value := 0 }

end NrfExamples.MqttWorking.Bme280
