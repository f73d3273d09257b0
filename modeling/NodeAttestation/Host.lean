import NodeAttestation.Bytes

/-! What the client says about the device it runs on. -/

namespace NodeAttestation

structure Host where
  osInfo : String
  deviceGroup : Option String
  locale : String
deriving DecidableEq

namespace Host

/-- The value of a variable, as it was set; one that is not text counts as not set. -/
abbrev Environ := String → Option Bytes

def text? (environ : Environ) (name : String) : Option String :=
  (environ name).bind Bytes.toText?

def defaultLocale : String := "en_US"

/-- The language that is set for everything or else by default, without its encoding. -/
def localeOf (environ : Environ) : String :=
  match (text? environ "LC_ALL").or (text? environ "LANG") with
  | none => defaultLocale
  | some value =>
    let language := value.toList.takeWhile (· != '.')
    if language.isEmpty then defaultLocale else String.ofList language

def detect (osInfo : String) (environ : Environ) : Host :=
  ⟨osInfo, text? environ "AUTOMATED_DEVICE_GROUP", localeOf environ⟩

end Host

end NodeAttestation
