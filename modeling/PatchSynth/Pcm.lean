import PatchSynth.Single.Bits

/-!
This module contains blocks of samples and their conversion to 16-bit PCM.
-/

namespace PatchSynth

abbrev Block := Array Float32

namespace Pcm

def playbackScaler : Float32 := 32767

def recordingScaler : Float32 := 32768

/--
The scaled sample without its fraction, saturated at the ends of the 16-bit range. NaN becomes 0.
-/
def ofSample (scaler sample : Float32) : Int16 :=
  Int16.ofInt (Single.toIntSaturating (-32768) 32767 (sample * scaler))

/--
Write the scaled samples of a block over the front of `out`. The shorter of the two decides how
many.
-/
def convert (scaler : Float32) (block : Block) (out : Array Int16) : Array Int16 :=
  let converted := (block.extract 0 out.size).map (ofSample scaler)
  converted ++ out.extract converted.size out.size

def convertStereo (block : Block) (out : Array Int16) : Array Int16 :=
  convert playbackScaler block out

def bytes (sample : Int16) : List UInt8 :=
  [sample.toUInt16.toUInt8, (sample.toUInt16 >>> 8).toUInt8]

end Pcm
end PatchSynth
