import EightBit.GameBoy.PowerOn
import EightBit.Noise.ChaCha

/-!
# The noise after power-on

The memory of the handheld after power-on is filled from the keystream of the seed.
-/

namespace EightBit.GameBoy

instance : NoiseSource where
  noise seed := EightBit.noise seed _

end EightBit.GameBoy
