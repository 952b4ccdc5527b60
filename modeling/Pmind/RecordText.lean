import Pmind.Sensor

/-!
# The JSON text of a record

`serde_json`'s `to_vec` of the three records a sensor writes: the fields in their order and without
a space, an integer in decimal, and an `f32` as the shortest decimal text that is read back to it,
which `f32` gives.
-/

namespace Pmind

def ascii (s : String) : List UInt8 := s.toUTF8.toList

def decimal (n : ℕ) : List UInt8 := (Nat.toDigits 10 n).map fun c => c.toNat.toUInt8

variable (f32 : Float32 → List UInt8)

def Soil.text (r : Soil) : List UInt8 :=
  ascii "\x7b\"moisture\":" ++ decimal r.moisture.toNat ++ ascii ",\"temp\":" ++ f32 r.temp
    ++ ascii "\x7d"

def Light.text (r : Light) : List UInt8 :=
  ascii "\x7b\"fs\":" ++ decimal r.fs.toNat ++ ascii ",\"lux\":" ++ f32 r.lux ++ ascii "\x7d"

def Gas.text (r : Gas) : List UInt8 :=
  ascii "\x7b\"temp\":" ++ f32 r.temp ++ ascii ",\"p\":" ++ f32 r.p ++ ascii ",\"h\":" ++ f32 r.h
    ++ ascii ",\"gas\":" ++ decimal r.gas.toNat ++ ascii "\x7d"

end Pmind
