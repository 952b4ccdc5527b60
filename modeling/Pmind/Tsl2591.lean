import Pmind.Drivers

/-!
# The light sensor at the other end of the bus

`Device` has the registers the driver writes, and what the next transfers come to: a transfer that
fails changes no register. A `Call` of the driver comes with what the transfers it makes come to.
-/

namespace Pmind

structure Device where
  /-- The enable register. -/
  enabled : UInt8
  /-- The control register. -/
  control : UInt8
  /-- How often the channels were asked for. -/
  asked : ℕ
  /-- Whether the next writes go through. -/
  writes : List Bool
  /-- What the next reads of the channels give. -/
  words : List (Option (Vector UInt8 4))

namespace Device

def store (d : Device) : List UInt8 → Device
  | [cmd, value] =>
    if cmd = TSL2591.cmdCtrlSet then { d with control := value }
    else if cmd = TSL2591.cmdEnableSet then { d with enabled := value }
    else d
  | _ => d

instance : I2c Device where
  write d _ bytes :=
    (d.writes.headD false,
      { (if d.writes.headD false then d.store bytes else d) with writes := d.writes.tail })
  read d _ _ := (none, d)
  writeRead d _ _ n :=
    (if h : 4 = n then h ▸ d.words.headD none else none,
      { d with asked := d.asked + 1, words := d.words.tail })

end Device

/-- What the transfers of one call come to, in the order it makes them. -/
structure Transfers where
  write₁ : Bool
  write₂ : Bool
  word₁ : Option (Vector UInt8 4)
  word₂ : Option (Vector UInt8 4)

def Device.expect (d : Device) (t : Transfers) : Device :=
  { d with writes := [t.write₁, t.write₂], words := [t.word₁, t.word₂] }

namespace TSL2591

def expect (s : TSL2591 Device) (t : Transfers) : TSL2591 Device :=
  { s with i2c := s.i2c.expect t }

inductive Call where
  | enable
  | disable
  | configure (gain : Option Gain) (intTime : Option IntegrationTime)
  | adjustForBrightLight
  | adjustForMidLight
  | adjustForLowLight
  | adjustForUltraLowLight
  | adjustForCurrentLight
  | setMode (mode : Mode)
  | read (buffer : List UInt8) (start : ℕ)

/-- The driver after a call, whether it returned `Ok` or `Err`: none if it panicked. -/
def call (json : RecordJson) (s : TSL2591 Device) : Call → Option (TSL2591 Device)
  | .enable => some (enable.run.run s).2
  | .disable => some (disable.run.run s).2
  | .configure gain intTime => some ((configure gain intTime).run.run s).2
  | .adjustForBrightLight => some (adjustForBrightLight.run.run s).2
  | .adjustForMidLight => some (adjustForMidLight.run.run s).2
  | .adjustForLowLight => some (adjustForLowLight.run.run s).2
  | .adjustForUltraLowLight => some (adjustForUltraLowLight.run.run s).2
  | .adjustForCurrentLight => some (adjustForCurrentLight.run.run s).2
  | .setMode mode => some ((setMode mode).run s).2
  | .read buffer start => (s.read json buffer start).map fun (_, s, _) => s

def step (json : RecordJson) (s : TSL2591 Device) (c : Call × Transfers) :
    Option (TSL2591 Device) :=
  (s.expect c.2).call json c.1

end TSL2591

end Pmind
