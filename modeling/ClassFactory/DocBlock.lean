/-
Module: ClassFactory.DocBlock
Purpose: Documentation blocks: the tags that say something about types, the signature they give a
  function, and the block that stands right in front of a place in a source.
Main exports: DocParam, TypeTag, DocBlock, splitTags, DocBlock.ofContent, commentContent,
  DocBlock.signatureFor, DocBlock.abstractSignature, leadingBlock
-/
import ClassFactory.Source.Site
import ClassFactory.Text.Bytes
import ClassFactory.Types.Reader

namespace ClassFactory

/-- A documented parameter. -/
structure DocParam where
  name : String
  type : Ty
  optional : Bool
  rest : Bool
deriving Inhabited

/-- A documented type with its optional mark. -/
structure TypeTag where
  type : Ty
  optional : Bool
deriving Inhabited

/-- What a documentation block says about types. -/
structure DocBlock where
  params : List DocParam
  returns : Option Ty
  typeTag : Option TypeTag
  isPrivate : Bool
deriving Inhabited

namespace DocBlock

/-- A block without tags. -/
def empty : DocBlock := { params := [], returns := none, typeTag := none, isPrivate := false }

/-- Whether the character is white space within ASCII. -/
def isAsciiBlank (c : Char) : Bool :=
  c = ' ' || c = '\t' || c = '\n' || c = '\r' || c = '\x0c'

/-- Cuts a line before every `@` that stands outside braces after white space. `piece` holds the
characters of the current piece in reverse, `depth` the braces open so far. -/
def cutLine : Int → List Char → List Char → List (List Char)
  | _, piece, [] => [piece.reverse]
  | depth, piece, c :: cs =>
    if c = '{' then cutLine (depth + 1) (c :: piece) cs
    else if c = '}' then cutLine (depth - 1) (c :: piece) cs
    else if c = '@' && depth = 0 && piece.head?.any isAsciiBlank then
      piece.reverse :: cutLine depth [c] cs
    else cutLine depth (c :: piece) cs

/-- The pieces of a line, trimmed; empty ones are dropped. -/
def linePieces (line : List Char) : List (List Char) :=
  ((cutLine 0 [] line).map Text.trim).filter fun piece => !piece.isEmpty

/-- A line without its decoration: white space and one star in front, white space behind. -/
def undecorated (line : List Char) : List Char :=
  Text.trim (Text.dropStart ['*'] (Text.trimStart line))

/-- The tags finished so far, the latest first, and the tag being read. -/
structure TagScan where
  finished : List (List Char)
  current : Option (List Char)

namespace TagScan

/-- Takes one more piece: a piece that starts with `@` begins a tag, any other continues the
current tag after the given separator. -/
def take (scan : TagScan) (separator : Char) (piece : List Char) : TagScan :=
  if piece.head? = some '@' then
    { finished := scan.current.toList ++ scan.finished, current := some piece }
  else
    { scan with current := scan.current.map fun tag => tag ++ separator :: piece }

/-- Takes the pieces of one line. The first continues a tag on a new line, the others after a
space. -/
def takeLine (scan : TagScan) (line : List Char) : TagScan :=
  match linePieces (undecorated line) with
  | [] => scan
  | first :: rest => rest.foldl (fun s piece => s.take ' ' piece) (scan.take '\n' first)

/-- All tags in order. -/
def tags (scan : TagScan) : List (List Char) :=
  scan.finished.reverse ++ scan.current.toList

end TagScan

/-- The tags of a block, each with the lines that continue it. Text before the first tag is
dropped. -/
def splitTags (content : String) : List (List Char) :=
  ((Text.splitLines content.toList).foldl TagScan.takeLine { finished := [], current := none }).tags

/-- Splits a text after its opening brace at the brace that closes it. -/
def closingBrace : Nat → List Char → List Char → Option (List Char × List Char)
  | _, _, [] => none
  | depth, inside, c :: cs =>
    if c = '{' then closingBrace (depth + 1) (c :: inside) cs
    else if c = '}' then
      match depth with
      | 0 => some (inside.reverse, cs)
      | depth + 1 => closingBrace depth (c :: inside) cs
    else closingBrace depth (c :: inside) cs

/-- The text between the braces at the start of a text, and what follows them. -/
def braced? (cs : List Char) : Option (String × List Char) :=
  match Text.trimStart cs with
  | '{' :: rest =>
    (closingBrace 0 [] rest).map fun (inside, after) =>
      (String.ofList inside, Text.trimStart after)
  | _ => none

/-- The name of a documented parameter: the next word, without the brackets that mark it as
optional. -/
def paramName (cs : List Char) : String :=
  let word := Text.firstWord cs
  let word := word.dropWhile (· = '[')
  String.ofList (word.reverse.dropWhile (· = ']')).reverse

/-- Enters one tag into a block. A later tag of the same kind replaces an earlier one, except that
parameters add up; tags without a braced type where one is needed say nothing. -/
def enter (block : DocBlock) (tag : List Char) : DocBlock :=
  let keyword := String.ofList (tag.takeWhile fun c => !Text.isBlank c)
  let rest := Text.trim ((tag.dropWhile fun c => !Text.isBlank c).drop 1)
  match keyword with
  | "@param" =>
    match braced? rest with
    | some (type, after) =>
      let declared := readDeclaredType type
      let param : DocParam :=
        { name := paramName after, type := declared.type, optional := declared.optional,
          rest := declared.rest }
      { block with params := block.params ++ [param] }
    | none => block
  | "@return" | "@returns" =>
    match braced? rest with
    | some (type, _) => { block with returns := some (readType type) }
    | none => block
  | "@type" | "@const" =>
    match braced? rest with
    | some (type, _) =>
      let declared := readDeclaredType type
      { block with typeTag := some { type := declared.type, optional := declared.optional } }
    | none => block
  | "@private" => { block with isPrivate := true }
  | _ => block

/-- Reads the inner text of a documentation block. -/
def ofContent (content : String) : DocBlock :=
  (splitTags content).foldl enter empty

/-- Whether the block says anything about types. -/
def hasTypes (block : DocBlock) : Bool :=
  !block.params.isEmpty || block.returns.isSome || block.typeTag.isSome

/-- The signature that a function type in the block's type tag gives. -/
def taggedSignature? (block : DocBlock) : Option Signature :=
  block.typeTag.bind fun tag => tag.type.signature?

/-- The parameter of a function as the block documents it, by name. An undocumented parameter is
unconstrained, and takes all further arguments if the function declares it so. -/
def paramFor (block : DocBlock) (name : String) (takesRest : Bool) : Param :=
  match block.params.find? (·.name = name) with
  | some documented => .mk name documented.type documented.optional documented.rest
  | none => .mk name .unknown false takesRest

/-- The parameters of a function with the given names, of which the last may take all further
arguments. -/
def paramsFor (block : DocBlock) (hasRest : Bool) : List String → List Param
  | [] => []
  | [name] => [block.paramFor name hasRest]
  | name :: rest => block.paramFor name false :: paramsFor block hasRest rest

/-- The signature the block gives a function with the given parameter names. A function type in
the type tag wins; without it, the block must document a parameter or the result. -/
def signatureFor (block : DocBlock) (names : List String) (hasRest : Bool) : Option Signature :=
  match block.taggedSignature? with
  | some signature => some signature
  | none =>
    if block.params.isEmpty && block.returns.isNone then none
    else some { params := block.paramsFor hasRest names, returns := block.returns.getD .unknown }

/-- The signature the block gives a method that is declared without a definition: its documented
parameters in order. -/
def abstractSignature (block : DocBlock) : Option Signature :=
  if block.hasTypes then
    match block.taggedSignature? with
    | some signature => some signature
    | none =>
      some { params := block.params.map fun p => .mk p.name p.type p.optional p.rest,
             returns := block.returns.getD .unknown }
  else none

end DocBlock

/-- The inner text of a comment, without its delimiters and the white space around them. -/
def commentContent (raw : String) : String :=
  let cs := Text.dropStart ['/', '*', '*'] (Text.trim raw.toList)
  String.ofList (Text.dropEnd ['*', '/'] cs)

/-- The number of ranges, searched by halving, that end at or before an offset. `base` is the
first range of the part still searched, which holds `size` of them. -/
def halve (comments : Array Span) (offset : Nat) : Nat → Nat → Nat → Nat
  | 0, base, _ => base
  | budget + 1, base, size =>
    if size ≤ 1 then base
    else
      let half := size / 2
      let reached := (comments[base + half]?).any fun c => c.stop ≤ offset
      halve comments offset budget (if reached then base + half else base) (size - half)

/-- How many of the ranges, taken in order of position, end at or before the offset. -/
def endedBefore (comments : Array Span) (offset : Nat) : Nat :=
  if comments.isEmpty then 0
  else
    let base := halve comments offset comments.size 0 comments.size
    if (comments[base]?).any fun c => c.stop ≤ offset then base + 1 else base

/-- The range with its delimiters: two bytes wider on either side if it does not begin with
them. -/
def withDelimiters? (source : List Char) (comment : Span) : Option Span :=
  match Text.dropBytes? comment.start source with
  | none => none
  | some rest =>
    if Text.startsWith ['/', '*'] rest then some comment
    else if comment.start < 2 then none
    else some { start := comment.start - 2, stop := comment.stop + 2 }

/-- The documentation block right in front of an offset, with only white space between. `comments`
are the comments of the source in order of position, with or without their delimiters. -/
def leadingBlock (source : List Char) (comments : Array Span) (offset : Nat) : Option String :=
  match endedBefore comments offset with
  | 0 => none
  | index + 1 => do
    let comment ← comments[index]?
    let range ← withDelimiters? source comment
    let text ← Text.slice? range.start range.stop source
    if Text.startsWith ['/', '*', '*'] text && !Text.startsWith ['/', '*', '*', '*'] text then
      let between ← Text.slice? range.stop offset source
      if between.all Text.isBlank then some (String.ofList text) else none
    else none

/-- The block in front of an offset, read; empty if there is none. -/
def docBlockAt (source : List Char) (comments : Array Span) (offset : Nat) : DocBlock :=
  match leadingBlock source comments offset with
  | some text => DocBlock.ofContent (commentContent text)
  | none => DocBlock.empty

end ClassFactory
