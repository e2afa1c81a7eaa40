import Neaten.Text.Basic

/-! # Code page 437

    The character set of names in archives that do not say they are in UTF-8.
    Its lower half is ASCII. -/

namespace Neaten.CodePage437

/-- The characters of the bytes from 0x80 on, sixteen to a row. -/
def upperRows : List String :=
  ["ÇüéâäàåçêëèïîìÄÅ",
   "ÉæÆôöòûùÿÖÜ¢£¥₧ƒ",
   "áíóúñÑªº¿⌐¬½¼¡«»",
   "░▒▓│┤╡╢╖╕╣║╗╝╜╛┐",
   "└┴┬├─┼╞╟╚╔╩╦╠═╬╧",
   "╨╤╥╙╘╒╓╫╪┘┌█▄▌▐▀",
   "αßΓπΣσµτΦΘΩδ∞φε∩",
   "≡±≥≤⌠⌡÷≈°∙·√ⁿ²■\u00A0"]

/-- The characters of the bytes from 0x80 on. -/
def upperHalf : Text := upperRows.flatMap String.toList

example : upperHalf.length = 128 := by decide +kernel

/-- The character of a byte. -/
def decodeByte (b : UInt8) : Char :=
  if b.toNat < 0x80 then Char.ofNat b.toNat else upperHalf.getD (b.toNat - 0x80) '\uFFFD'

/-- The text of some bytes. -/
def decode (bytes : Bytes) : Text := bytes.map decodeByte

end Neaten.CodePage437
