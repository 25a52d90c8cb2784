import ContractAbi.Bytes.Hex
import ContractAbi.Text.Visible

/-!
# Quoted text

A text in quotation marks in which every character can be seen: quotation marks,
backslashes and the usual control characters are escaped by a backslash, and all
others that are not drawn, or that combine with the character before them, by
their code point.
-/

namespace ContractAbi.Text

def quotedCharacter (character : Char) : List Char :=
  if character = '"' then ['\\', '"']
  else if character = '\\' then ['\\', '\\']
  else if character = '\n' then ['\\', 'n']
  else if character = '\r' then ['\\', 'r']
  else if character = '\t' then ['\\', 't']
  else if character.toNat = 0 then ['\\', '0']
  else if isVisible character then [character]
  else ['\\', 'u', '\x7b'] ++ (Hex.number character.toNat).toList ++ ['\x7d']

def quoted (text : String) : String :=
  "\"" ++ String.ofList (text.toList.flatMap quotedCharacter) ++ "\""

end ContractAbi.Text
