import CircuitCompiler.Notation.Constraint
import CircuitCompiler.Notation.Scope

/-!
# Values of the notation

Everything that is said of one value is a list of conjuncts: expressions with the surroundings in
which their names have a meaning. `Eval.groupsOf` brings conjuncts into groups of heads, where a
head is a constraint, a list, the declarations of a record, or a choice; `Eval.alternatives` goes
through the choices; `formOf` is what the heads come to without choices. `Eval.status` says whether
a value with all its parts is settled, is still open, or contradicts itself.

A definition is closed: in a value that refers to it no other fields are allowed than those it
declares. What was said at one reference to a definition is one group, and each closed group is
asked on its own.

Evaluation takes fuel and keeps account of the names it follows. A name that leads back to itself is
open; a value that holds itself without end contradicts itself.
-/

namespace CircuitCompiler.Notation

/-- A name and how many frames are around the one that holds it. -/
abbrev Place := String × Nat

/-- How often a name is followed again on the way into a value. -/
def Place.limit : Nat := 2

mutual

/-- What a conjunct says at first sight. -/
inductive Head where
  | record (decls : List Decl) (env : List Frame) (inDefinition : Bool) (trail : List Place)
  | scalar (c : Constraint)
  /-- A list; one with a rest may go on. -/
  | list (items : List Conjunct) (rest : Option Conjunct)
  /-- One of several values, with the names that were followed to the choice. -/
  | choice (options : List (Bool × Conjunct)) (busy : List Place)
  /-- No value, for good or as long as something is open. -/
  | failed (final : Bool)

/-- Heads that are closed together. The fields of further heads are allowed beside theirs. -/
inductive Group where
  | mk (closed : Bool) (heads : List Head) (tolerated : List Head)

/-- A record around an expression, or a local name. -/
inductive Frame where
  | record (decls : List Decl) (groups : List Group)
  | value (name : String) (conjuncts : List Conjunct)

/-- An expression in its surroundings, with the names that were followed on the way into the value.
-/
inductive Conjunct where
  | mk (expr : Expr) (env : List Frame) (inDefinition : Bool) (trail : List Place)

end

instance : Inhabited Head := ⟨.failed true⟩
instance : Inhabited Group := ⟨.mk false [] []⟩
instance : Inhabited Conjunct := ⟨.mk .nothing [] false []⟩

namespace Group

/-- Whether the group is closed. -/
def closed : Group → Bool
  | mk c _ _ => c

/-- The heads of the group. -/
def heads : Group → List Head
  | mk _ hs _ => hs

/-- The heads whose fields the group allows. -/
def allowing : Group → List Head
  | mk _ hs ts => hs ++ ts

/-- The group with further heads whose fields are allowed. -/
def tolerate (more : List Head) : Group → Group
  | mk c hs ts => mk c hs (ts ++ more)

/-- A group of one head. -/
def one (h : Head) : Group := mk false [h] []

end Group

namespace Conjunct

/-- Whether the conjunct stands in a definition. -/
def inDefinition : Conjunct → Bool
  | mk _ _ d _ => d

/-- The conjunct on another way. -/
def on (trail : List Place) : Conjunct → Conjunct
  | mk e env d _ => mk e env d trail

/-- Whether a conjunct is not a name again that was followed on the way to it, and no name was
followed twice. -/
def isFresh : Conjunct → Bool
  | mk e _ _ trail =>
    trail.eraseDups.length == trail.length && match e with
      | .name s => !trail.any (·.1 == s)
      | _ => true

/-- The conjunct as if every name had been followed once. -/
def restarted : Conjunct → Conjunct
  | mk e env d trail => mk e env d trail.eraseDups

end Conjunct

/-- How far a value is settled. -/
inductive Status where
  | contradictory
  | open_
  | settled
  deriving DecidableEq, Repr, Inhabited

/-- The status of two parts together. -/
def Status.meet : Status → Status → Status
  | .contradictory, _ | _, .contradictory => .contradictory
  | .open_, _ | _, .open_ => .open_
  | .settled, .settled => .settled

/-- Whether an alternative is preferred, given the marks of the choices that lead to it. -/
inductive Rank where
  | neutral
  | preferred
  | other
  deriving DecidableEq, Repr, Inhabited

/-- The rank behind two choices. -/
def Rank.meet : Rank → Rank → Rank
  | .other, _ | _, .other => .other
  | .preferred, _ | _, .preferred => .preferred
  | .neutral, .neutral => .neutral

/-! ## Forms -/

/-- What heads without choices come to. -/
inductive Form where
  | failed (final : Bool)
  | scalar (c : Constraint)
  | record
  | list (items : List (List Conjunct)) (goesOn : Bool)

/-- Whether declarations make a record by themselves: a record that only holds other values is what
these are. -/
def isStructural (ds : List Decl) : Bool :=
  ds.any (fun d => match d with
    | .field l _ _ _ => l.isRegular
    | .computed _ _ _ _ => true
    | _ => false) ||
  !ds.any fun d => match d with
    | .embed _ => true
    | _ => false

/-- The conjuncts of one item of lists that meet. -/
def itemAt (lists : List (List Conjunct × Option Conjunct)) (i : Nat) : List Conjunct :=
  lists.filterMap fun (items, rest) => (items[i]?).orElse fun _ => rest

/-- What lists come to: closed ones are equally long, and others not longer than these. -/
def listForm (lists : List (List Conjunct × Option Conjunct)) : Form :=
  let longest := (lists.map (·.1.length)).foldl max 0
  let fixed := lists.filter (·.2.isNone)
  if fixed.all (·.1.length == longest) then
    .list ((List.range longest).map (itemAt lists)) fixed.isEmpty
  else .failed true

/-- What heads come to; there are no choices among them. -/
def formOf (gs : List Group) : Form :=
  let heads := gs.flatMap Group.heads
  let lists := heads.filterMap fun h => match h with
    | .list items rest => some (items, rest)
    | _ => none
  let scalars := heads.filterMap fun h => match h with
    | .scalar c => some c
    | _ => none
  let records := heads.filterMap fun h => match h with
    | .record ds _ _ _ => some ds
    | _ => none
  let failures := heads.filterMap fun h => match h with
    | .failed final => some final
    | _ => none
  match scalars.foldlM Constraint.meet? Constraint.any with
  | none => .failed true
  | some c =>
    let structural := records.any isStructural
    let parts := if structural then [Kind.record] else []
    let parts := if lists.isEmpty then parts else Kind.list :: parts
    if failures.contains true || parts.length == 2 || parts.any (!c.kinds.contains ·) then
      .failed true
    else if failures.contains false then .failed false
    else if !lists.isEmpty then listForm lists
    else if structural || scalars.isEmpty && !records.isEmpty then .record
    else .scalar c

/-- A choice among groups: the groups before and behind its own, what else its group holds, and the
options. -/
structure OpenChoice where
  before : List Group := []
  group : Group
  options : List (Bool × Conjunct)
  busy : List Place
  behind : List Group

/-- The first choice among groups. -/
def openChoice? : List Group → Option OpenChoice
  | [] => none
  | .mk closed heads tolerated :: rest =>
    match splitHeads heads with
    | some (before, options, busy, behind) =>
      let group := .mk closed (before ++ behind) tolerated
      some { group := group, options := options, busy := busy, behind := rest }
    | none =>
      (openChoice? rest).map fun c => { c with before := .mk closed heads tolerated :: c.before }
where
  /-- The first choice among heads. -/
  splitHeads : List Head → Option (List Head × List (Bool × Conjunct) × List Place × List Head)
    | [] => none
    | .choice options busy :: rest => some ([], options, busy, rest)
    | h :: rest => (splitHeads rest).map fun (before, x) => (h :: before, x)

/-- The groups with an option in the place of its choice. What the group of the choice allows is
allowed beside a closed option, and the option is part of the group. -/
def OpenChoice.take (c : OpenChoice) (option : List Group) : List Group :=
  let closed := (option.filter Group.closed).map (·.tolerate c.group.allowing)
  let loose := (option.filter (!·.closed)).flatMap Group.heads
  let own := match c.group with
    | .mk closed heads tolerated =>
      .mk closed (heads ++ loose) (tolerated ++ (option.filter Group.closed).flatMap Group.heads)
  c.before ++ own :: closed ++ c.behind

/-- The preferred ones of some alternatives, or all if none is preferred. -/
def chosen {α : Type} (alternatives : List (Rank × α)) : List (Rank × α) :=
  if alternatives.any (·.1 == .preferred) then alternatives.filter (·.1 == .preferred)
  else alternatives

/-- A field of a record. -/
structure FieldValue where
  label : Label
  presence : Presence
  conjuncts : List Conjunct

/-- Adds what is said of a field to the fields before. -/
def addField (fs : List FieldValue) (f : FieldValue) : List FieldValue :=
  if fs.any fun g => g.label.same f.label then
    fs.map fun g =>
      if g.label.same f.label then
        { g with presence := g.presence.meet f.presence, conjuncts := g.conjuncts ++ f.conjuncts }
      else g
  else fs ++ [f]

/-- The value of an option in text. -/
def templateText? : Atom → Option Bytes
  | .string b | .bytes b => some b
  | .number n => some (Bytes.ofString n.text)
  | .bool b => some (Bytes.ofString (if b then "true" else "false"))
  | .null => none

/-- A value whose expression is known. -/
def constant (a : Atom) : Conjunct := .mk (.atom a) [] false []

/-! ## Evaluation -/

namespace Eval

/-- A group that failed. -/
def failure (final : Bool) : List Group := [.one (.failed final)]

/-- A group that is one value. -/
def ofAtom? : Option Atom → List Group
  | some a => [.one (.scalar (.only a))]
  | none => failure true

/-- The groups of a record with other values in it. A closed one of these allows the fields of the
record and of the others. -/
def embedding (head : Head) (values : List (List Group)) : List Group :=
  let closed := values.zipIdx.flatMap fun (gs, i) =>
    let others := (values.eraseIdx i).flatten.flatMap Group.heads
    (gs.filter Group.closed).map (·.tolerate (head :: others))
  let loose := values.flatten.filter (!·.closed)
  .mk false (head :: loose.flatMap Group.heads) [] :: closed

/-- Whether declarations declare a field by a name. -/
def declares (ds : List Decl) (s : String) : Bool :=
  ds.any fun d => match d with
    | .field l _ _ _ => !l.quoted && l.name == s
    | _ => false

/-- The expression of a local name among declarations. -/
def binding? (ds : List Decl) (s : String) : Option Expr :=
  ds.findSome? fun d => match d with
    | .bind t e => if s == t then some e else none
    | .computed _ (some t) _ e => if s == t then some e else none
    | _ => none

/-- The field that a local name among declarations stands for. -/
def handled? (ds : List Decl) (s : String) : Option Label :=
  ds.findSome? fun d => match d with
    | .field l (some t) _ _ => if s == t then some l else none
    | _ => none

mutual

/-- The groups of conjuncts. What a definition says without reference to another is one closed
group. A value may hold itself as long as something fresh is said of it as well. -/
def groupsOf : Nat → List Place → List Conjunct → List Group
  | 0, _, _ => failure true
  | fuel + 1, busy, cs =>
    let cs := if cs.any Conjunct.isFresh then cs.map Conjunct.restarted else cs
    let all := cs.map fun c => (c.inDefinition, headsOf fuel busy c)
    let own := all.flatMap fun (d, gs) =>
      if d then (gs.filter (!·.closed)).flatMap Group.heads else []
    let others := all.flatMap fun (d, gs) => if d then gs.filter (·.closed) else gs
    (if own.isEmpty then [] else [.mk true own []]) ++ others

/-- The groups of one conjunct. -/
def headsOf : Nat → List Place → Conjunct → List Group
  | 0, _, _ => failure true
  | fuel + 1, busy, .mk e env d trail =>
    match e with
    | .atom a => ofAtom? (some a)
    | .anything => [.one (.scalar .any)]
    | .nothing => failure true
    | .paren e => headsOf fuel busy (.mk e env d trail)
    | .named s e => headsOf fuel busy (.mk e (.value s [.mk e env d trail] :: env) d trail)
    | .name s => referenceOf fuel busy trail env s
    | .record ds =>
      let head := Head.record ds env d (busy ++ trail)
      let inner := Frame.record ds [.one head] :: env
      embedding head (ds.filterMap fun x => match x with
        | .embed (.each clauses body) =>
          match yields fuel busy clauses inner with
          | .ok envs =>
            some (envs.flatMap fun env => headsOf fuel busy (.mk (.record body) env d trail))
          | .error final => some (failure final)
        | .embed e => some (headsOf fuel busy (.mk e inner d trail))
        | _ => none)
    | .list items rest =>
      let parts : List (Except Bool (List Conjunct)) := items.map fun x => match x with
        | .each clauses body =>
          (yields fuel busy clauses env).map
            (List.map fun env => .mk (.record body) env d (busy ++ trail))
        | e => .ok [.mk e env d (busy ++ trail)]
      match parts.mapM id with
      | .ok cs => [.one (.list cs.flatten (rest.map fun e => .mk e env d (busy ++ trail)))]
      | .error final => failure final
    | .unary op e =>
      match atomOf fuel busy (.mk e env false trail) with
      | .error final => failure final
      | .ok a =>
        match op with
        | .plus | .minus | .not => ofAtom? (op.result? a)
        | _ => match Constraint.ofBound? ⟨op, a⟩ with
          | some c => [.one (.scalar c)]
          | none => failure true
    | .binary .both a b =>
      headsOf fuel busy (.mk a env d trail) ++ headsOf fuel busy (.mk b env d trail)
    | .binary op a b => operation fuel busy op (.mk a env false trail) (.mk b env false trail)
    | .choice os => [.one (.choice (os.map fun o => (o.1, .mk o.2 env d trail)) busy)]
    | .select e l => fieldOf fuel busy (.mk e env false trail) l
    | .index e i =>
      match atomOf fuel busy (.mk i env false trail) with
      | .error final => failure final
      | .ok (.string b) => fieldOf fuel busy (.mk e env false trail) ⟨b.text, true⟩
      | .ok (.number n) => elementOf fuel busy (.mk e env false trail) n
      | .ok _ => failure true
    | .slice _ => failure true
    | .call (.name f) args => callOf fuel busy f (args.map fun e => .mk e env false trail)
    | .call _ _ => failure true
    | .template bytes parts =>
      match parts.mapM fun e => atomOf fuel busy (.mk e env false trail) with
      | .error final => failure final
      | .ok as => ofAtom? ((as.mapM templateText?).map fun bs =>
          if bytes then .bytes bs.flatten else .string bs.flatten)
    | .each _ _ => failure true

/-- The result of an operator on two values. -/
def operation : Nat → List Place → BinaryOp → Conjunct → Conjunct → List Group
  | 0, _, _, _, _ => failure true
  | fuel + 1, busy, op, a, b =>
    match atomOf fuel busy a, atomOf fuel busy b with
    | .ok a, .ok b => ofAtom? (op.result? a b)
    | .error x, .error y => failure (x || y)
    | .error x, _ | _, .error x => failure x

/-- What a name stands for. -/
def referenceOf : Nat → List Place → List Place → List Frame → String → List Group
  | 0, _, _, _, _ => failure true
  | fuel + 1, busy, trail, env, s =>
    match env with
    | [] =>
      match Constraint.named.lookup s with
      | some c => [.one (.scalar c)]
      | none => failure true
    | frame :: outer =>
      let place : Place := (s, outer.length)
      let blocked := busy.contains place || Place.limit < trail.count place
      let follow (cs : List Conjunct) : List Group :=
        if blocked then failure (!busy.contains place)
        else groupsOf fuel (place :: busy) (cs.map (·.on trail))
      match frame with
      | .value t cs => if s == t then follow cs else referenceOf fuel busy trail outer s
      | .record ds gs =>
        let field (l : Label) : List Group :=
          if blocked then follow []
          else match (fieldsOf fuel (place :: busy) gs).find? fun f => f.label.same l with
            | some f => if f.presence == .optional then failure false else follow f.conjuncts
            | none => failure true
        if declares ds s then field ⟨s, false⟩
        else
          match binding? ds s, handled? ds s with
          | some e, _ => follow [.mk e env false trail]
          | none, some l => field l
          | none, none => referenceOf fuel busy trail outer s

/-- The alternatives that choices leave open, without choices. -/
def alternatives : Nat → List Place → List Group → List (Rank × List Group)
  | 0, _, _ => []
  | fuel + 1, busy, gs =>
    match openChoice? gs with
    | none => [(.neutral, gs)]
    | some c =>
      let marked := c.options.any (·.1)
      c.options.flatMap fun (preferred, o) =>
        let rank := if marked then if preferred then Rank.preferred else .other else .neutral
        (alternatives fuel busy (c.take (headsOf fuel (c.busy ++ busy) o))).map fun (r, gs) =>
          (rank.meet r, gs)

/-- The groups of a value of which one alternative is chosen. -/
def pick : Nat → List Place → List Group → Except Bool (List Group)
  | 0, _, _ => .error true
  | fuel + 1, busy, gs =>
    let alive := (alternatives fuel busy gs).filter fun (_, gs) => match formOf gs with
      | .failed true => false
      | _ => true
    match chosen alive with
    | [] => .error true
    | [(_, gs)] => .ok gs
    | (_, gs) :: rest =>
      match formOf gs with
      | .scalar c => if rest.all fun (_, gs) => match formOf gs with
          | .scalar c' => c == c'
          | _ => false
        then .ok gs else .error false
      | _ => .error false

/-- The single value of a conjunct; the error says whether there can be none for good. -/
def atomOf : Nat → List Place → Conjunct → Except Bool Atom
  | 0, _, _ => .error true
  | fuel + 1, busy, c =>
    match pick fuel busy (groupsOf fuel busy [c]) with
    | .error final => .error final
    | .ok gs =>
      match formOf gs with
      | .failed final => .error final
      | .scalar c => match c.atom with
        | some a => .ok a
        | none => .error false
      | _ => .error true

/-- The fields of a record. Patterns apply to the data fields whose names satisfy them. -/
def fieldsOf : Nat → List Place → List Group → List FieldValue
  | 0, _, _ => [⟨⟨"", true⟩, .present, [default]⟩]
  | fuel + 1, busy, gs =>
    let records := gs.flatMap fun g => g.heads.filterMap fun h => match h with
      | .record ds env d trail => some (ds, Frame.record ds gs :: env, d, trail)
      | _ => none
    let plain := records.flatMap fun (ds, env, d, trail) => ds.filterMap fun x => match x with
      | .field l _ p e => some (FieldValue.mk l p [.mk e env (d || l.isDefinition) trail])
      | .computed l _ p e => match atomOf fuel busy (.mk l env false trail) with
        | .ok (.string b) => some ⟨⟨b.text, true⟩, p, [.mk e env d trail]⟩
        | _ => none
      | _ => none
    let merged := plain.foldl addField []
    let patterns := records.flatMap fun (ds, env, d, trail) => ds.filterMap fun x => match x with
      | .pattern binder l e => some (binder, l, e, env, d, trail)
      | _ => none
    merged.map fun f =>
      let named := f.label.name
      let more := patterns.filterMap fun (binder, l, e, env, d, trail) =>
        if f.label.isRegular && satisfies fuel busy f.label (.mk l env false trail) then
          let env := binder.toList.map (Frame.value · [constant (.ofString named)]) ++ env
          some (Conjunct.mk e env d trail)
        else none
      { f with conjuncts := f.conjuncts ++ more }

/-- Whether the name of a field satisfies a pattern. -/
def satisfies : Nat → List Place → Label → Conjunct → Bool
  | 0, _, _, _ => false
  | fuel + 1, busy, l, c =>
    match pick fuel busy (groupsOf fuel busy [c, constant (.ofString l.name)]) with
    | .ok gs => match formOf gs with
      | .scalar _ => true
      | _ => false
    | .error _ => false

/-- Whether a closed group allows a field. -/
def admits : Nat → List Group → Group → Label → Bool
  | 0, _, _, _ => false
  | fuel + 1, gs, g, l =>
    g.allowing.any fun h => match h with
      | .record ds env _ trail =>
        let env := Frame.record ds gs :: env
        ds.any fun d => match d with
          | .field m _ _ _ => m.same l
          | .computed e _ _ _ => match atomOf fuel [] (.mk e env false trail) with
            | .ok (.string b) => b.text == l.name
            | _ => false
          | .pattern _ p _ => satisfies fuel [] l (.mk p env false trail)
          | .further => true
          | _ => false
      | _ => false

/-- The value of a field of a value. -/
def fieldOf : Nat → List Place → Conjunct → Label → List Group
  | 0, _, _, _ => failure true
  | fuel + 1, busy, c, l =>
    match pick fuel busy (groupsOf fuel busy [c]) with
    | .error final => failure final
    | .ok gs =>
      match formOf gs with
      | .failed final => failure final
      | .scalar c => failure c.atom.isSome
      | .list _ _ => failure true
      | .record =>
        match (fieldsOf fuel busy gs).find? fun f => f.label.same l with
        | some f => if f.presence == .present then groupsOf fuel busy f.conjuncts else failure false
        | none => failure false

/-- An item of a list. -/
def elementOf : Nat → List Place → Conjunct → Number → List Group
  | 0, _, _, _ => failure true
  | fuel + 1, busy, c, n =>
    match pick fuel busy (groupsOf fuel busy [c]), (if n.whole then n.integer? else none) with
    | .error final, _ => failure final
    | .ok gs, some i =>
      match formOf gs with
      | .list items goesOn =>
        match (if 0 ≤ i then items[i.toNat]? else none) with
        | some cs => groupsOf fuel busy cs
        | none => failure (i < 0 || !goesOn)
      | .scalar c => failure c.atom.isSome
      | .failed final => failure final
      | .record => failure true
    | .ok _, none => failure true

/-- The result of a function. -/
def callOf : Nat → List Place → String → List Conjunct → List Group
  | 0, _, _, _ => failure true
  | fuel + 1, busy, f, args =>
    match args with
    | [c] =>
      match pick fuel busy (groupsOf fuel busy [c]) with
      | .error final => failure final
      | .ok gs =>
        match f, formOf gs with
        | _, .failed final => failure final
        | "len", .list items _ => ofAtom? (some (.number { digits := items.length }))
        | "len", .record =>
          let n := (fieldsOf fuel busy gs).filter fun f =>
            f.label.isRegular && f.presence == .present
          ofAtom? (some (.number { digits := n.length }))
        | "len", .scalar c => match c.atom with
          | some (.string b) | some (.bytes b) => ofAtom? (some (.number { digits := b.length }))
          | some _ => failure true
          | none => failure false
        | "close", .record => [.mk true (gs.flatMap Group.heads) []]
        | "and", .list items _ => groupsOf fuel busy items.flatten
        | "or", .list items _ => [.one (.choice (items.flatten.map (false, ·)) busy)]
        | _, .scalar c => failure c.atom.isSome
        | _, _ => failure true
    | [a, b] =>
      match BinaryOp.named.lookup f with
      | some op => operation fuel busy op a b
      | none => failure true
    | _ => failure true

/-- The surroundings of the records of a comprehension: one for each way to satisfy its clauses. -/
def yields : Nat → List Place → List Clause → List Frame → Except Bool (List (List Frame))
  | 0, _, _, _ => .error true
  | _ + 1, _, [], env => .ok [env]
  | fuel + 1, busy, clause :: rest, env =>
    match clause with
    | .bind s e => yields fuel busy rest (.value s [.mk e env false []] :: env)
    | .provided e =>
      match atomOf fuel busy (.mk e env false []) with
      | .ok (.bool b) => if b then yields fuel busy rest env else .ok []
      | .ok _ => .error true
      | .error final => .error final
    | .forEach key value source =>
      match pick fuel busy (groupsOf fuel busy [.mk source env false []]) with
      | .error final => .error final
      | .ok gs =>
        let rounds : Except Bool (List (Conjunct × List Conjunct)) := match formOf gs with
          | .failed final => .error final
          | .scalar c => .error c.atom.isSome
          | .list items _ =>
            .ok (items.zipIdx.map fun (cs, i) => (constant (.number { digits := i }), cs))
          | .record =>
            let fs := (fieldsOf fuel busy gs).filter fun f =>
              f.label.isRegular && f.presence == .present
            .ok (fs.map fun f => (constant (.ofString f.label.name), f.conjuncts))
        match rounds with
        | .error final => .error final
        | .ok rounds =>
          let envs := rounds.map fun (k, cs) =>
            yields fuel busy rest
              (Frame.value value cs :: key.toList.map (Frame.value · [k]) ++ env)
          (envs.mapM id).map List.flatten

end

mutual

/-- How far the value of groups is settled. -/
def status : Nat → List Group → Status
  | 0, _ => .contradictory
  | fuel + 1, gs =>
    let all := (alternatives fuel [] gs).map fun (r, gs) => (r, gs, settledness fuel gs)
    match chosen (all.filter fun (_, _, s) => s != .contradictory) with
    | [] => .contradictory
    | [(_, _, s)] => s
    | (_, gs, s) :: rest =>
      match formOf gs with
      | .scalar c => if rest.all fun (_, gs, _) => match formOf gs with
          | .scalar c' => c == c'
          | _ => false
        then s else .open_
      | _ => .open_

/-- How far the value of groups without choices is settled. The parts are looked at until one of
them contradicts itself. -/
def settledness : Nat → List Group → Status
  | 0, _ => .contradictory
  | fuel + 1, gs =>
    match formOf gs with
    | .failed final => if final then .contradictory else .open_
    | .scalar c => if c.atom.isSome then .settled else .open_
    | .list items _ => items.foldl (fun s cs =>
        if s == .contradictory then s else s.meet (status fuel (groupsOf fuel [] cs))) .settled
    | .record =>
      let fs := (fieldsOf fuel [] gs).filter fun f => f.presence != .optional
      let closed := gs.filter fun g => g.closed && g.heads.any fun h => match h with
        | .record _ _ _ _ => true
        | _ => false
      if fs.any fun f => f.label.isRegular && closed.any fun g => !admits fuel gs g f.label then
        .contradictory
      else fs.foldl (fun s f =>
        if s == .contradictory then s
        else
          let t := status fuel (groupsOf fuel [] f.conjuncts)
          let t := if t == .contradictory then t
            else if !f.label.isRegular then .settled
            else if f.presence == .required then .open_
            else t
          s.meet t) .settled

end

/-- Whether a value itself, and not only a part of it, fails for good or as long as something is
open. -/
def fails (fuel : Nat) (gs : List Group) : Bool :=
  (alternatives fuel [] gs).all fun (_, gs) => match formOf gs with
    | .failed _ => true
    | _ => false

end Eval
end CircuitCompiler.Notation
