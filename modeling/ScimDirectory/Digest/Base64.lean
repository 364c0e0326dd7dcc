/-!
# Base64

The standard encoding of bytes in 64 characters, three bytes to four characters, filled up with
equals signs.
-/

namespace ScimDirectory.Digest

/-- The character of six bits. -/
def base64Char (n : Nat) : Char :=
  if n < 26 then Char.ofNat ('A'.toNat + n)
  else if n < 52 then Char.ofNat ('a'.toNat + (n - 26))
  else if n < 62 then Char.ofNat ('0'.toNat + (n - 52))
  else if n = 62 then '+'
  else '/'

/-- The four characters of three bytes. -/
def base64Group (a b c : UInt8) : List Char :=
  let n := (a.toNat * 256 + b.toNat) * 256 + c.toNat
  [base64Char (n / 262144), base64Char (n / 4096 % 64), base64Char (n / 64 % 64),
    base64Char (n % 64)]

/-- The encoding of bytes. -/
def base64Chars : List UInt8 → List Char
  | [] => []
  | [a] => (base64Group a 0 0).take 2 ++ ['=', '=']
  | [a, b] => (base64Group a b 0).take 3 ++ ['=']
  | a :: b :: c :: rest => base64Group a b c ++ base64Chars rest

/-- The encoding of bytes as a text. -/
def base64 (bytes : List UInt8) : String := String.ofList (base64Chars bytes)

end ScimDirectory.Digest
