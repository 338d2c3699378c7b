import ComponentBuild.SortedMap.Basic
import ComponentBuild.Text.Letter
import ComponentBuild.Text.Lines

/-!
Renaming the names in a type text.

A type text is read as words, quoted strings and single other characters;
nothing is lost (`text_tokens`).  A word is renamed unless the last character
before it that is not blank is a dot, which makes it the member of a property
access.  Quoted strings are left alone.
-/

namespace ComponentBuild

structure CharClasses where
  letter : Char → Bool
  letterOrDigit : Char → Bool
  blank : Char → Bool

namespace CharClasses

def unicode : CharClasses where
  letter := Text.isLetter
  letterOrDigit := Text.isLetterOrDigit
  blank := Text.isBlank

def startsWord (classes : CharClasses) (c : Char) : Bool :=
  classes.letter c || c == '_' || c == '$'

def continuesWord (classes : CharClasses) (c : Char) : Bool :=
  classes.letterOrDigit c || c == '_' || c == '$'

end CharClasses

inductive TypeToken where
  | word (text : List Char)
  | quoted (text : List Char)
  | other (c : Char)
  deriving DecidableEq, Repr

namespace TypeToken

def text : TypeToken → List Char
  | word text => text
  | quoted text => text
  | other c => [c]

end TypeToken

namespace TypeText

def isQuote (c : Char) : Bool :=
  c == '"' || c == '\'' || c == '\x60'

/-- The rest of a string after its opening quote `q`, up to and with the closing
one, and what follows.  A backslash takes the next character with it. -/
def cutString (q : Char) : List Char → List Char × List Char
  | [] => ([], [])
  | '\\' :: c :: rest => ('\\' :: c :: (cutString q rest).1, (cutString q rest).2)
  | c :: rest => if c = q then ([c], rest)
      else (c :: (cutString q rest).1, (cutString q rest).2)

theorem cutString_append (q : Char) (text : List Char) :
    (cutString q text).1 ++ (cutString q text).2 = text := by
  fun_induction cutString q text with
  | case1 => rfl
  | case2 c rest ih => simp [ih]
  | case3 c rest => simp
  | case4 c rest _ _ ih => simp [ih]

private theorem cutString_length (q : Char) (text : List Char) :
    (cutString q text).2.length ≤ text.length := by
  have := congrArg List.length (cutString_append q text)
  simp only [List.length_append] at this
  omega

private theorem dropWhile_length (p : Char → Bool) (text : List Char) :
    (text.dropWhile p).length ≤ text.length := by
  have :=
    congrArg List.length (List.takeWhile_append_dropWhile (p := p) (l := text))
  simp only [List.length_append] at this
  omega

def tokens (classes : CharClasses) : List Char → List TypeToken
  | [] => []
  | c :: rest =>
      if isQuote c then
        .quoted (c :: (cutString c rest).1) :: tokens classes (cutString c rest).2
      else if classes.startsWord c then
        .word (c :: rest.takeWhile classes.continuesWord)
          :: tokens classes (rest.dropWhile classes.continuesWord)
      else
        .other c :: tokens classes rest
termination_by text => text.length
decreasing_by
  · have := cutString_length c rest
    simp only [List.length_cons]
    omega
  · have := dropWhile_length classes.continuesWord rest
    simp only [List.length_cons]
    omega
  · simp

theorem text_tokens (classes : CharClasses) (text : List Char) :
    (tokens classes text).flatMap TypeToken.text = text := by
  fun_induction tokens classes text with
  | case1 => rfl
  | case2 c rest _ ih => simp [TypeToken.text, ih, cutString_append]
  | case3 c rest _ _ ih =>
      simp [TypeToken.text, ih, List.takeWhile_append_dropWhile]
  | case4 c rest _ _ ih => simp [TypeToken.text, ih]

/-- Renames words.  `afterDot` says that the last character so far that is not
blank is a dot. -/
def renameTokens (classes : CharClasses) (renames : SortedMap String String) :
    (afterDot : Bool) → List TypeToken → List TypeToken
  | _, [] => []
  | afterDot, .word text :: rest =>
      let renamed :=
        if afterDot then text
        else ((renames.get? (String.ofList text)).map String.toList).getD text
      .word renamed :: renameTokens classes renames false rest
  | _, .quoted text :: rest =>
      .quoted text :: renameTokens classes renames false rest
  | afterDot, .other c :: rest =>
      .other c
        :: renameTokens classes renames (if classes.blank c then afterDot
          else c == '.') rest

def renameWith (classes : CharClasses) (renames : SortedMap String String)
    (text : List Char) :
    List Char :=
  (renameTokens classes renames false (tokens classes text)).flatMap
    TypeToken.text

def rename (renames : SortedMap String String) (text : String) : String :=
  String.ofList (renameWith .unicode renames text.toList)

end TypeText

end ComponentBuild
