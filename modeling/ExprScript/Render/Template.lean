import ExprScript.Layout.Code

/-!
# Templates

A template is code with numbered holes. `Template.parse` reads one from text, where a hole is a digit from `0` to `2` in
braces and everything else stands for itself; `Template.fill` puts code into the holes, in one pass.
-/

namespace ExprScript

/-- A piece of a template. -/
inductive Piece where
  | text (s : Text)
  | hole (i : Nat)
deriving DecidableEq

instance : Coe String Piece := ⟨fun s => .text s⟩

instance (n : Nat) : OfNat Piece n := ⟨.hole n⟩

/-- Code with numbered holes. -/
abbrev Template := List Piece

namespace Template

/-- A hole as it is written in text. -/
def holeText (i : Nat) : Text := "\x7b" ++ Text.ofNat i ++ "\x7d"

/-- The number of the hole that a text starts with. -/
def hole? (t : Text) : Option Nat := [0, 1, 2].find? fun i => (holeText i).isPrefixOf t

/-- Puts a unit before a template. -/
def consUnit (u : CodeUnit) : Template → Template
  | .text s :: rest => .text (u :: s) :: rest
  | pieces => .text [u] :: pieces

/-- Reads a template, after passing over `skip` units that belong to a hole already seen. -/
def parseFrom : Nat → Text → Template
  | _, [] => []
  | skip + 1, _ :: rest => parseFrom skip rest
  | 0, c :: rest =>
    match hole? (c :: rest) with
    | some i => .hole i :: parseFrom 2 rest
    | none => consUnit c (parseFrom 0 rest)

/-- Reads a template. -/
def parse (t : Text) : Template := parseFrom 0 t

/-- The code of a piece; a hole for which there is no argument reads `undefined`. -/
def fillPiece (args : List Code) : Piece → Code
  | .text s => .text s
  | .hole i => args.getD i "undefined"

/-- The template with its holes filled. -/
def fill (t : Template) (args : List Code) : Code := .concat (t.map (fillPiece args))

end Template

end ExprScript
