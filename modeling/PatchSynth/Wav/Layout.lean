import PatchSynth.Files
import PatchSynth.Pcm

/-!
This module contains the layout of a WAV file with 16-bit PCM: a header, two of whose fields hold
sizes, and the samples behind it. Up to two channels have the plain header of 44 bytes, more have
the extensible one, which names their speakers. `parse?` reads back what `header` and `Pcm.bytes`
write.
-/

namespace PatchSynth

def sampleRate : Nat := 44100

namespace Wav

def bytes16 (n : Nat) : List UInt8 :=
  [UInt8.ofNat n, UInt8.ofNat (n / 0x100)]

def bytes32 (n : Nat) : List UInt8 :=
  bytes16 n ++ bytes16 (n / 0x10000)

def isPlain (channels : Nat) : Bool :=
  channels ≤ 2

def headerSize (channels : Nat) : Nat :=
  if isPlain channels then 44 else 68

def riffSizeOffset : Nat := 4

def dataSizeOffset (channels : Nat) : Nat :=
  headerSize channels - 4

def riffSize (channels dataSize : Nat) : Nat :=
  headerSize channels - 8 + dataSize

def maxSamples : Nat := (0xFFFFFFFF - 36) / 2

def ascii (text : String) : List UInt8 :=
  text.toList.map fun c => UInt8.ofNat c.toNat

/--
The speakers of the channels, one bit each. Only 18 bits name a speaker; further channels have none.
-/
def speakers (channels : Nat) : Nat :=
  Nat.pow 2 (min channels 18) - 1

def extension (channels : Nat) : List UInt8 :=
  bytes16 22 ++ bytes16 16 ++ bytes32 (speakers channels)
    ++ [0x01, 0x00, 0x00, 0x00, 0x00, 0x00, 0x10, 0x00,
        0x80, 0x00, 0x00, 0xaa, 0x00, 0x38, 0x9b, 0x71]

def header (channels dataSize : Nat) : List UInt8 :=
  ascii "RIFF" ++ bytes32 (riffSize channels dataSize)
    ++ ascii "WAVEfmt " ++ bytes32 (if isPlain channels then 16 else 40)
    ++ bytes16 (if isPlain channels then 1 else 0xfffe) ++ bytes16 channels
    ++ bytes32 sampleRate ++ bytes32 (sampleRate * 2 * channels)
    ++ bytes16 (2 * channels) ++ bytes16 16
    ++ (if isPlain channels then [] else extension channels)
    ++ ascii "data" ++ bytes32 dataSize

theorem length_header (channels dataSize : Nat) :
    (header channels dataSize).length = headerSize channels := by
  cases h : isPlain channels <;> simp [header, extension, ascii, bytes32, bytes16, headerSize, h]

def ofBytes (bytes : List UInt8) : Nat :=
  bytes.foldr (fun byte high => byte.toNat + 0x100 * high) 0

def samplesOfBytes : List UInt8 → List Int16
  | low :: high :: rest => Int16.ofNat (ofBytes [low, high]) :: samplesOfBytes rest
  | _ => []

structure Content where
  channels : Nat
  samples : List Int16
  deriving DecidableEq

/--
Read a file whose header is the one that `header` writes for its channels and its size.
-/
def parse? (bytes : List UInt8) : Option Content :=
  let channels := ofBytes ((bytes.drop 22).take 2)
  let data := bytes.drop (headerSize channels)
  if bytes.take (headerSize channels) = header channels data.length ∧ data.length % 2 = 0 then
    some { channels, samples := samplesOfBytes data }
  else
    none

end Wav
end PatchSynth
