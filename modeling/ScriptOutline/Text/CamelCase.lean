/-
ScriptOutline/Text/CamelCase.lean

Upper camel case.  A text is cut into words at every character that is neither a letter nor
a number, and inside such a piece where a lower case letter meets an upper case one
(`camelCase`) or where a run of capitals meets a capitalised word (`XMLHttp`).  Each word is
written with a capital first and small letters after it, and the words are joined with
nothing between them.
-/
import ScriptOutline.Text.Letter

namespace ScriptOutline.CamelCase

open Letter

/-- What the scan of a piece has last seen: no letter yet, a small one or a capital. -/
inductive Mode where
  | boundary
  | lower
  | upper
  deriving DecidableEq

/-- The mode after one more character: a character without case keeps it. -/
def Mode.next (mode : Mode) (c : Char) : Mode :=
  if isLower c then .lower else if isUpper c then .upper else mode

/-- The words of a piece that is letters and numbers only.  `current` holds the open word,
its last character first. -/
def wordsFrom (mode : Mode) (current : List Char) : List Char → List (List Char)
  | [] => []
  | [c] => [(c :: current).reverse]
  | c :: n :: rest =>
    if mode.next c = .lower ∧ isUpper n then
      (c :: current).reverse :: wordsFrom .boundary [] (n :: rest)
    else if mode = .upper ∧ isUpper c ∧ isLower n then
      current.reverse :: wordsFrom .boundary [c] (n :: rest)
    else wordsFrom (mode.next c) (c :: current) (n :: rest)

/-- The pieces between the characters that are neither letters nor numbers. -/
def pieces : List Char → List (List Char)
  | [] => [[]]
  | c :: rest =>
    if isAlphanumeric c then
      match pieces rest with
      | [] => [[c]]
      | piece :: others => (c :: piece) :: others
    else [] :: pieces rest

/-- All words of a text, in order. -/
def words (cs : List Char) : List (List Char) :=
  (pieces cs).flatMap (wordsFrom .boundary [])

/-- Small letters throughout; a sigma at the very end takes its final form. -/
def lowercase : List Char → List Char
  | [] => []
  | c :: rest => (if c = 'Σ' ∧ rest = [] then ['ς'] else toLower c) ++ lowercase rest

/-- A capital first, small letters after it. -/
def capitalize : List Char → List Char
  | [] => []
  | c :: rest => toUpper c ++ lowercase rest

/-- A text in upper camel case. -/
def upperCamel (text : String) : String :=
  String.ofList ((words text.toList).flatMap capitalize)

example : upperCamel "my-script" = "MyScript" := by decide +kernel
example : upperCamel "XMLHttpRequest2" = "XmlHttpRequest2" := by decide +kernel
example : upperCamel "ßtraße" = "SStraße" := by decide +kernel
example : upperCamel "aͣb cd" = "AͣbCd" := by decide +kernel

end ScriptOutline.CamelCase
