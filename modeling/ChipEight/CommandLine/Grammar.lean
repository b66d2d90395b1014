import ChipEight.Text.Integer
import ChipEight.Text.Quoted

/-! Command lines made of options, and the rules by which their arguments are told apart. -/

namespace ChipEight.CommandLine

open Text

inductive Takes
  | nothing
  | value
deriving DecidableEq, Repr

structure OptionSpec (σ : Type) where
  meaning : σ
  spellings : List String
  takes : Takes

namespace OptionSpec

variable {σ : Type}

def title (f : OptionSpec σ) : String :=
  "/".intercalate f.spellings

end OptionSpec

structure Hit (σ : Type) where
  spec : OptionSpec σ
  spelling : String
  joined : Option (List Char)

inductive Shape (σ : Type)
  | plain
  | separator
  | unknown
  | hit (h : Hit σ)

inductive ParseError
  | ambiguous (argument : String) (spellings : List String)
  | missing (title : String)
  | unwanted (title text : String)
  | noInteger (title text : String)
  | unrecognized (arguments : List String)
deriving DecidableEq, Repr

def ParseError.message : ParseError → String
  | ambiguous argument spellings =>
    "ambiguous option: " ++ argument ++ " could match " ++ ", ".intercalate spellings
  | missing title => "argument " ++ title ++ ": expected one argument"
  | unwanted title text => "argument " ++ title ++ ": ignored explicit argument " ++ quote text
  | noInteger title text => "argument " ++ title ++ ": invalid int value: " ++ quote text
  | unrecognized arguments => "unrecognized arguments: " ++ " ".intercalate arguments

/-- A minus sign and digits, with at most one point that has a digit after it; a line feed may
end the text. -/
def isNegativeNumber (cs : List Char) : Bool :=
  match cs with
  | '-' :: body =>
    let body := if body.getLast? = some '\n' then body.dropLast else body
    let whole := body.takeWhile isDecimalDigit
    match body.dropWhile isDecimalDigit with
    | [] => !whole.isEmpty
    | '.' :: places => !places.isEmpty && places.all isDecimalDigit
    | _ => false
  | _ => false

def splitEquals (cs : List Char) : List Char × Option (List Char) :=
  match cs.dropWhile (· ≠ '=') with
  | [] => (cs, none)
  | _ :: rest => (cs.takeWhile (· ≠ '='), some rest)

section

variable {σ : Type}

def spellings (specs : List (OptionSpec σ)) : List (OptionSpec σ × String) :=
  specs.flatMap fun f => f.spellings.map fun s => (f, s)

def lookup? (specs : List (OptionSpec σ)) (spelling : List Char) :
    Option (OptionSpec σ × String) :=
  (spellings specs).find? fun (_, s) => s.toList = spelling

def candidates (specs : List (OptionSpec σ)) (cs : List Char) : List (Hit σ) :=
  match cs with
  | '-' :: '-' :: _ =>
    let (name, joined) := splitEquals cs
    (spellings specs).filterMap fun (f, s) =>
      if name.isPrefixOf s.toList then some ⟨f, s, joined⟩ else none
  | '-' :: c :: rest =>
    (spellings specs).filterMap fun (f, s) =>
      if s.toList = ['-', c] then some ⟨f, s, some rest⟩
      else if cs.isPrefixOf s.toList then some ⟨f, s, none⟩
      else none
  | _ => []

/-- Tells what an argument is. A spelling in full wins, then one in full before an equals sign,
then the only candidate. -/
def shapeOf (specs : List (OptionSpec σ)) (argument : String) : Except ParseError (Shape σ) :=
  let cs := argument.toList
  if cs.head? ≠ some '-' then .ok .plain
  else
    match lookup? specs cs with
    | some (f, s) => .ok (.hit ⟨f, s, none⟩)
    | none =>
      if cs.length = 1 then .ok .plain
      else
        let (name, joined) := splitEquals cs
        match joined.bind fun text => (lookup? specs name).map fun fs => (fs, text) with
        | some ((f, s), text) => .ok (.hit ⟨f, s, some text⟩)
        | none =>
          match candidates specs cs with
          | [h] => .ok (.hit h)
          | [] =>
            if isNegativeNumber cs || cs.contains ' ' then .ok .plain else .ok .unknown
          | hits => .error (.ambiguous argument (hits.map (·.spelling)))

def shapesOf (specs : List (OptionSpec σ)) :
    List String → Except ParseError (List (String × Shape σ))
  | [] => .ok []
  | a :: rest =>
    if a = "--" then .ok ((a, .separator) :: rest.map fun b => (b, .plain))
    else do
      let shape ← shapeOf specs a
      return (a, shape) :: (← shapesOf specs rest)

structure Use (σ : Type) where
  spec : OptionSpec σ
  text : Option String

structure Expansion (σ : Type) where
  uses : List (Use σ)
  wanting : Option (OptionSpec σ)

def Expansion.after (use : Use σ) (e : Expansion σ) : Expansion σ :=
  { e with uses := use :: e.uses }

def OptionSpec.alone (f : OptionSpec σ) : Expansion σ :=
  match f.takes with
  | .value => ⟨[], some f⟩
  | .nothing => ⟨[⟨f, none⟩], none⟩

def joinedValue (text : List Char) : Option String :=
  if text = ['-', '-'] then none else some (String.ofList text)

/-- A single letter without a value may be followed by further ones; any other option without a
value has nothing joined to it. -/
def expandJoined (specs : List (OptionSpec σ)) (f : OptionSpec σ) (spelling : String)
    (text : List Char) : Except ParseError (Expansion σ) :=
  if f.takes = .value then .ok ⟨[⟨f, joinedValue text⟩], none⟩
  else
    match text with
    | [] => .error (.unwanted f.title "")
    | c :: rest =>
      match if spelling.startsWith "--" then none else lookup? specs ['-', c] with
      | none => .error (.unwanted f.title (String.ofList text))
      | some (g, s) =>
        match rest with
        | [] => .ok (g.alone.after ⟨f, none⟩)
        | d :: more => (expandJoined specs g s (d :: more)).map (.after ⟨f, none⟩)

def expand (specs : List (OptionSpec σ)) (hit : Hit σ) : Except ParseError (Expansion σ) :=
  match hit.joined with
  | none => .ok hit.spec.alone
  | some text => expandJoined specs hit.spec hit.spelling text

structure Progress (τ : Type) where
  state : τ
  extras : List String

def consume {τ ε : Type} (specs : List (OptionSpec σ)) (fail : ParseError → ε)
    (act : τ → Use σ → Except ε τ) (p : Progress τ) :
    List (String × Shape σ) → Except ε (Progress τ)
  | [] => .ok p
  | (_, .hit h) :: rest =>
    match expand specs h with
    | .error e => .error (fail e)
    | .ok x =>
      match x.wanting with
      | none =>
        match x.uses.foldlM act p.state with
        | .error e => .error e
        | .ok state => consume specs fail act { p with state } rest
      | some f =>
        match rest with
        | (b, .plain) :: rest =>
          match (x.uses ++ [Use.mk f (some b)]).foldlM act p.state with
          | .error e => .error e
          | .ok state => consume specs fail act { p with state } rest
        | _ => .error (fail (.missing f.title))
  | (a, _) :: rest => consume specs fail act { p with extras := p.extras ++ [a] } rest

def parse {τ ε : Type} (specs : List (OptionSpec σ)) (fail : ParseError → ε)
    (act : τ → Use σ → Except ε τ) (start : τ) (arguments : List String) : Except ε τ :=
  match shapesOf specs arguments with
  | .error e => .error (fail e)
  | .ok shapes => do
    let p ← consume specs fail act ⟨start, []⟩ shapes
    if p.extras.isEmpty then return p.state else .error (fail (.unrecognized p.extras))

end

end ChipEight.CommandLine
