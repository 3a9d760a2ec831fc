/-
Groups: captures, options, look-around, atomic groups, comments, references by name and conditionals.
-/
import UrlRouter.Regex.Reader.Escape

namespace UrlRouter.Regex

def openFrame (kind : GroupKind) (start : Nat) (mode : Mode) : Read Unit :=
  modify fun r => { r with frame := ⟨kind, start, mode, [], []⟩, outer := r.frame :: r.outer }

/-- Opens a capturing group and gives it the next number. -/
def openCapture (start : Nat) (name : Option String) : Read Unit := do
  let r ← get
  let number := r.groupBound
  if let some name := name then
    if let some earlier := r.names.lookup name then
      failBack (.duplicateGroupName name number earlier) (name.length + 1)
    modify fun r => { r with names := r.names ++ [(name, number)] }
  modify fun r => { r with widths := r.widths ++ [none] }
  openFrame (.capture number) start r.frame.mode

def groupName (terminator : Char) : Read String := do
  let name ← nameUntil terminator "group name"
  if Text.isIdentifier name then return name
  else failBack (.badGroupName name) (name.length + 1)

def readNamedReference : Read Unit := do
  let name ← groupName ')'
  let r ← get
  match r.names.lookup name with
  | none => failBack (.unknownGroupName name) (name.length + 1)
  | some n =>
    if (r.groupWidth? n).isNone then failBack .openGroupReference (name.length + 1)
    checkLookBehind n
    pushBackref n

/-- no group number reaches this -/
def groupLimit : Nat := 1073741823

/-- The group that a conditional asks for. A number may be ahead of its group; it is checked at the end. -/
def conditionGroup (text : String) : Read Nat := do
  let back := text.length + 1
  let r ← get
  if Text.isIdentifier text then
    match r.names.lookup text with
    | some n => return n
    | none => failBack (.unknownGroupName text) back
  else
    match Text.readInteger text with
    | .error _ => failBack (.badGroupName text) back
    | .ok n =>
      if n < 0 then failBack (.badGroupName text) back
      else if n = 0 then failBack .badGroupNumber back
      else if groupLimit ≤ n.toNat then failBack (.invalidGroupReference n.toNat) back
      else
        if (r.references.lookup n.toNat).isNone then
          set { r with references := r.references ++ [(n.toNat, r.position - back)] }
        return n.toNat

def readCondition (start : Nat) : Read Unit := do
  let group ← conditionGroup (← nameUntil ')' "group name")
  checkLookBehind group
  openFrame (.conditional group none) start (← mode)

def openLook (start : Nat) (behind negated : Bool) : Read Unit := do
  let r ← get
  if behind && r.behindFrom.isNone then set { r with behindFrom := some r.groupBound }
  openFrame (.look behind negated r.behindFrom) start r.frame.mode

def skipComment (start : Nat) : Nat → Read Unit
  | 0 => failAt .unterminatedComment start
  | limit + 1 => do
    match ← take? with
    | none => failAt .unterminatedComment start
    | some t => if t = .plain ')' then return () else skipComment start limit

/-- the letters of the options -/
def isFlag (c : Char) : Bool := ['i', 'L', 'm', 's', 'x', 'a', 't', 'u'].contains c

/-- the options of which only one can hold: ASCII, locale and Unicode -/
def isTypeFlag (c : Char) : Bool := ['a', 'L', 'u'].contains c

def badFlag {α : Type} (t : Token) (expected : String) : Read α :=
  match t with
  | .plain c => failBack (if Text.isLetter c then .unknownFlag else .missing expected) 1
  | _ => failBack (.missing expected) t.length

/-- The options to turn on, from the letter `c`, and the character after them. -/
def flagsOn (on : List Char) (c : Char) : Nat → Read (List Char × Char)
  | 0 => failHere (.missing "-, : or )")
  | limit + 1 => do
    if c = 'L' then failHere .localeFlag
    let on := on ++ [c]
    if isTypeFlag c && on.any (fun f => isTypeFlag f && f != c) then failHere .incompatibleFlags
    match ← take? with
    | none => failHere (.missing "-, : or )")
    | some (.plain d) =>
      if d = ')' || d = '-' || d = ':' then return (on, d)
      else if isFlag d then flagsOn on d limit
      else badFlag (.plain d) "-, : or )"
    | some t => badFlag t "-, : or )"

/-- The options to turn off, from the letter `c` up to the colon. -/
def flagsOff (off : List Char) (c : Char) : Nat → Read (List Char)
  | 0 => failHere (.missing ":")
  | limit + 1 => do
    if isTypeFlag c then failHere .typeFlagOff
    let off := off ++ [c]
    match ← take? with
    | none => failHere (.missing ":")
    | some (.plain d) =>
      if d = ':' then return off
      else if isFlag d then flagsOff off d limit
      else badFlag (.plain d) ":"
    | some t => badFlag t ":"

def Mode.adjust (mode : Mode) (on off : List Char) : Mode where
  ascii := (mode.ascii && !on.contains 'u') || on.contains 'a'
  ignoreCase := (mode.ignoreCase || on.contains 'i') && !off.contains 'i'
  multiline := (mode.multiline || on.contains 'm') && !off.contains 'm'
  dotAll := (mode.dotAll || on.contains 's') && !off.contains 's'
  verbose := (mode.verbose || on.contains 'x') && !off.contains 'x'

/-- Options for the whole expression are allowed only where nothing has been read yet. -/
def setGlobalFlags (start : Nat) (on : List Char) : Read Unit := do
  let r ← get
  if !r.outer.isEmpty || !r.frame.done.isEmpty || !r.frame.items.isEmpty then failAt .lateGlobalFlags start
  set { r with
    globalFlags := r.globalFlags ++ on
    frame := { r.frame with mode := r.frame.mode.adjust on [] } }

/-- A group that opens with options, after its first character `c`, which is a letter or the dash. -/
def readFlags (start : Nat) (c : Char) : Read Unit := do
  let limit := (← get).rest.length + 1
  let (on, close) ← if c = '-' then pure ([], '-') else flagsOn [] c limit
  if close = ')' then setGlobalFlags start on
  else
    if on.contains 't' then failBack .globalFlagOn 1
    let off ←
      if close = '-' then
        match ← take? with
        | none => failHere (.missing "flag")
        | some (.plain d) => if isFlag d then flagsOff [] d limit else badFlag (.plain d) "flag"
        | some t => badFlag t "flag"
      else pure []
    if off.contains 't' then failBack .globalFlagOff 1
    if on.any off.contains then failBack .flagOnAndOff 1
    openFrame .plain start ((← mode).adjust on off)

/-- A group, after its opening parenthesis at `start`. -/
def openGroup (start : Nat) : Read Unit := do
  if !(← accept '?') then openCapture start none
  else
    match ← take? with
    | none => failHere .patternEnds
    | some (.plain 'P') =>
      if ← accept '<' then openCapture start (some (← groupName '>'))
      else if ← accept '=' then readNamedReference
      else
        match ← take? with
        | none => failHere .patternEnds
        | some t => failBack (.unknownExtension ("?P" ++ t.text)) (t.length + 2)
    | some (.plain ':') => openFrame .plain start (← mode)
    | some (.plain '#') => skipComment start ((← get).rest.length + 1)
    | some (.plain '=') => openLook start false false
    | some (.plain '!') => openLook start false true
    | some (.plain '<') =>
      match ← take? with
      | none => failHere .patternEnds
      | some (.plain '=') => openLook start true false
      | some (.plain '!') => openLook start true true
      | some t => failBack (.unknownExtension ("?<" ++ t.text)) (t.length + 2)
    | some (.plain '(') => readCondition start
    | some (.plain '>') => openFrame .atomic start (← mode)
    | some t =>
      match t with
      | .plain c =>
        if isFlag c || c = '-' then readFlags start c
        else failBack (.unknownExtension ("?" ++ t.text)) (t.length + 1)
      | _ => failBack (.unknownExtension ("?" ++ t.text)) (t.length + 1)

def Frame.alternative (f : Frame) : Node := .ofList (f.items.reverse.map (·.node))

def Frame.body (f : Frame) : Node := .ofAlternatives (f.done.reverse ++ [f.alternative])

/-- A vertical bar ends an alternative; a conditional has two parts at most. -/
def nextAlternative : Read Unit := do
  let r ← get
  match r.frame.kind with
  | .conditional group none =>
    let _ ← take?
    modify fun r =>
      { r with frame := { r.frame with kind := .conditional group (some r.frame.alternative), items := [] } }
  | .conditional _ (some _) => failHere .tooManyBranches
  | _ =>
    let _ ← take?
    modify fun r => { r with frame := { r.frame with done := r.frame.alternative :: r.frame.done, items := [] } }

/-- what a group that closes adds to the group around it -/
def Reader.closed (r : Reader) : Node :=
  let body := r.frame.body
  match r.frame.kind with
  | .whole | .plain => body
  | .capture n => .group n body
  | .atomic => .atomic body
  | .look behind negated _ =>
    .look (if behind then .behind (body.width r.groupWidth) else .ahead) negated body
  | .conditional group none => .conditional group body .empty
  | .conditional group (some present) => .conditional group present body

/-- Closes the innermost group into `around`, the frame around it. -/
def Reader.close (r : Reader) (around : Frame) (outer : List Frame) : Reader :=
  let r' := { r with
    frame := { around with items := ⟨r.closed, .yes⟩ :: around.items }
    outer }
  match r.frame.kind with
  | .capture n => { r' with widths := r.widths.set (n - 1) (some (r.frame.body.width r.groupWidth)) }
  | .look _ _ outerBehind => { r' with behindFrom := outerBehind }
  | _ => r'

/-- A parenthesis closes the innermost group; with none open the expression ends there, wrongly. -/
def closeGroup : Read Unit := do
  let r ← get
  match r.outer with
  | [] =>
    if r.globalFlags.contains 'a' && r.globalFlags.contains 'u' then throw .asciiAndUnicode
    else failHere .unbalancedParenthesis
  | around :: outer =>
    let _ ← take?
    modify fun r => r.close around outer

end UrlRouter.Regex
