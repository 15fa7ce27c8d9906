import PacketWire.Config.Basic

/-!
# Checking a configuration

A configuration can be well formed and still make no sense. Checking lists every problem, those of
the codec settings first.
-/

namespace PacketWire

inductive Problem
  | noMessageFits
  | messagesTooLarge (limit : UInt64)
  | namelessApp
  /-- The name of the application is too long; names are measured in bytes of UTF-8. -/
  | appNameTooLong (bytes : Nat)
  deriving DecidableEq, Repr

def Problem.message : Problem → String
  | .noMessageFits => "Max message size cannot be 0"
  | .messagesTooLarge limit =>
    "Max message size too large: " ++ toString limit.toNat
      ++ " bytes (maximum recommended: 100 MB)"
  | .namelessApp => "Application name cannot be empty"
  | .appNameTooLong bytes =>
    "Application name too long: " ++ toString bytes ++ " characters (maximum: 64)"

/-- The largest message size that is recommended: 100 MiB. -/
def recommendedMaxMessageSize : UInt64 := 100 * 1024 * 1024

/-- The longest name of an application, in bytes of UTF-8. -/
def maxAppNameBytes : Nat := 64

def CodecSettings.problems (s : CodecSettings) : List Problem :=
  if s.maxMessageSize = 0 then [.noMessageFits]
  else if recommendedMaxMessageSize < s.maxMessageSize then [.messagesTooLarge s.maxMessageSize]
  else []

def LogSettings.problems (s : LogSettings) : List Problem :=
  if s.appName.isEmpty then [.namelessApp]
  else if maxAppNameBytes < s.appName.utf8ByteSize then [.appNameTooLong s.appName.utf8ByteSize]
  else []

def Config.problems (c : Config) : List Problem := c.codec.problems ++ c.logging.problems

end PacketWire
