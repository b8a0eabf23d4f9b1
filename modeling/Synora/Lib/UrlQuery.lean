import Synora.Lib.Hex
import Synora.Lib.Utf8

/- The parameters of a URL, as Go reads a raw query: pairs between ampersands, the key up
   to the first equals sign. A pair with a semicolon, or with a percent sign that no two
   hexadecimal digits follow, is dropped. The raw query is bytes; bytes of a value that
   are no character are read as replacement characters. -/
namespace UrlQuery

/-- `url.QueryUnescape`: a plus is a blank, and `%` with two digits a byte. -/
def unescape : List UInt8 → Option (List UInt8)
  | [] => some []
  | b :: rest =>
    if b = 0x25 then
      match rest with
      | high :: low :: rest =>
        match hexVal (Char.ofNat high.toNat), hexVal (Char.ofNat low.toNat) with
        | some x, some y => (unescape rest).map fun bs => UInt8.ofNat (16 * x.val + y.val) :: bs
        | _, _ => none
      | _ => none
    else (unescape rest).map fun bs => (if b = 0x2B then 0x20 else b) :: bs

def text (bs : List UInt8) : String := String.ofList (Utf8.runes bs)

/-- A pair; `none` where it is dropped. -/
def pair (piece : List UInt8) : Option (String × String) :=
  if 0x3B ∈ piece ∨ piece = [] then none
  else
    match unescape (piece.takeWhile (· ≠ 0x3D)), unescape ((piece.dropWhile (· ≠ 0x3D)).drop 1) with
    | some key, some value => some (text key, text value)
    | _, _ => none

/-- `url.ParseQuery`, its error ignored. -/
def parse (raw : List UInt8) : List (String × String) := (raw.splitOn 0x26).filterMap pair

/-- The first value of a parameter, `none` if it is absent. -/
def value (raw : List UInt8) (name : String) : Option String :=
  ((parse raw).find? fun p => decide (p.1 = name)).map fun p => p.2

/-- `Values.Get`. -/
def get (raw : List UInt8) (name : String) : String := (value raw name).getD ""

theorem get_of_value {raw : List UInt8} {name s : String} (h : value raw name = some s) :
    get raw name = s := by
  rw [get, h, Option.getD_some]

theorem get_of_absent {raw : List UInt8} {name : String} (h : value raw name = none) :
    get raw name = "" := by
  rw [get, h, Option.getD_none]

example : parse (Base64Url.utf8 "a=1&b=%41+&c&d=%4".toList) = [("a", "1"), ("b", "A "), ("c", "")] := by
  decide +kernel

end UrlQuery
