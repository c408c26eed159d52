import OrderTicket.Text.LetterCase.Table

/-!
# Letter case

The full case mappings of Unicode on texts. They may lengthen a text (`ß` becomes `SS`) and they
are not inverse to each other (`ſ` becomes `S`, which becomes `s`). A capital sigma becomes the
final form `ς` exactly at the end of a word.

* `upper`: every character replaced by its upper case.
* `lower`: every character replaced by its lower case, sigmas by their place in the word.
-/

namespace OrderTicket.Text

/-- The image of a code point: an expansion if it has one, else the move of its run, if any. -/
def mapCase (expansions : List (Nat × List Nat)) (runs : List CaseRun) (c : Char) : List Char :=
  match expansions.find? (·.1 == c.toNat) with
  | some (_, image) => image.map Char.ofNat
  | none =>
    match runs.find? (·.covers c.toNat) with
    | some run => [Char.ofNat (c.toNat + run.offset).toNat]
    | none => [c]

/-- The upper case of one character. -/
def upperChar (c : Char) : List Char :=
  if c.toNat < 128 then [c.toUpper] else mapCase upperExpansions upperRuns c

/-- The lower case of one character, away from the end of a word. -/
def lowerChar (c : Char) : List Char :=
  if c.toNat < 128 then [c.toLower] else mapCase lowerExpansions lowerRuns c

/-- The upper case of a text. -/
def upper (s : String) : String :=
  .ofList (s.toList.flatMap upperChar)

/-- Characters with case, as far as a sigma is concerned. -/
def isCased (c : Char) : Bool :=
  inRanges casedRanges c.toNat

/-- Characters that do not interrupt a word, as far as a sigma is concerned. -/
def isCaseIgnorable (c : Char) : Bool :=
  inRanges caseIgnorableRanges c.toNat

/-- Whether the nearest character that is not ignorable has case. -/
def besideCased (cs : List Char) : Bool :=
  match cs.dropWhile isCaseIgnorable with
  | [] => false
  | c :: _ => isCased c

/-- The lower case of characters; `before` holds, nearest first, what stands in front of them. -/
def lowerFrom (before : List Char) : List Char → List Char
  | [] => []
  | c :: rest =>
    if c == 'Σ' then
      (if besideCased before && !besideCased rest then 'ς' else 'σ') :: lowerFrom (c :: before) rest
    else
      lowerChar c ++ lowerFrom (c :: before) rest

/-- The lower case of a text. -/
def lower (s : String) : String :=
  .ofList (lowerFrom [] s.toList)

end OrderTicket.Text
