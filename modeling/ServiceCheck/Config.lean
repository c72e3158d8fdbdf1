import ServiceCheck.Wire.Decoder

set_option autoImplicit false

namespace ServiceCheck

/-- `checkForMain` is off for libraries, which other programs include. -/
structure Config where
  checkForMain : Bool
deriving DecidableEq, Repr

namespace Config

def standard : Config := ⟨true⟩

def decoder : Decoder Config :=
  .record (Config.mk <$> Decoder.defaulted "checkForMain" true .bool)

end Config

end ServiceCheck
