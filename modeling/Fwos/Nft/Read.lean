import Mathlib.Data.List.Forall2

/-!
# How nft reads the rules of a chain

The text of a chain's rules, its tokens and its rules, as `nft -f` reads them,
and the verdict of a base chain on a packet.

* `scan`: the tokenizer. A quoted string is one token, and may run over the end
  of a line; a character that is no token is refused.
* `readRule`: the interface names a rule matches, its other matches, and its
  verdict. A statement after the verdict is refused.
* `Chain.verdict`: the first matching rule with a verdict decides, else the policy.

What the other matches mean is a parameter (`Reading`).
-/

namespace Nft

/-! ## Tokens -/

inductive Token where
  | word (text : String)
  | quoted (text : String)
  | mark (c : Char)
deriving DecidableEq, Repr

def isMark (c : Char) : Bool := c == '\x7b' || c == '\x7d' || c == ','

/-- The characters of unquoted words: visible ASCII without the ones that end a
word, begin a comment or a variable, or join lines. -/
def isWordChar (c : Char) : Bool :=
  0x21 ≤ c.toNat && c.toNat ≤ 0x7e && !isMark c && c != '"' && c != ';' && c != '#' && c != '$' &&
    c != '\\'

/-- The tokenizer's state: the tokens of the current rule, the characters of the
current token, and whether that is a quoted string. -/
structure Scan where
  tokens : List Token
  chars : List Char
  quoted : Bool
deriving DecidableEq, Repr

namespace Scan

def start : Scan := ⟨[], [], false⟩

/-- The tokens of the rule once the current word ends. -/
def flush (s : Scan) : List Token :=
  if s.chars.isEmpty then s.tokens else s.tokens ++ [.word (String.ofList s.chars)]

/-- One character: the next state, and the rule that it ends. -/
def step (s : Scan) (c : Char) : Option (Scan × List (List Token)) :=
  if s.quoted then
    if c = '"' then some (⟨s.tokens ++ [.quoted (String.ofList s.chars)], [], false⟩, [])
    else some (⟨s.tokens, s.chars ++ [c], true⟩, [])
  else if c = '"' then some (⟨s.flush, [], true⟩, [])
  else if c = '\n' ∨ c = ';' then some (start, [s.flush])
  else if c = ' ' ∨ c = '\t' then some (⟨s.flush, [], false⟩, [])
  else if isMark c then some (⟨s.flush ++ [.mark c], [], false⟩, [])
  else if isWordChar c then some (⟨s.tokens, s.chars ++ [c], false⟩, [])
  else none

end Scan

def scan : Scan → List Char → Option (Scan × List (List Token))
  | s, [] => some (s, [])
  | s, c :: rest => do
      let (s, ended) ← s.step c
      let (s, rules) ← scan s rest
      return (s, ended ++ rules)

/-! ## Rules -/

/-- A comparison of an interface name. -/
structure NameMatch where
  name : String
  negated : Bool := false
deriving DecidableEq, Repr

def NameMatch.holds (m : NameMatch) (name : String) : Bool := (m.name == name) != m.negated

inductive Verdict where
  | accept
  | drop
  | reject
  | ret
  | queue
  | masquerade
  | dnat (target : List Token)
deriving DecidableEq, Repr

structure Rule where
  iifname : List NameMatch := []
  oifname : List NameMatch := []
  /-- The tokens of the other matches. -/
  others : List Token := []
  verdict : Option Verdict := none
deriving DecidableEq, Repr

def verdictWord (word : String) : Option Verdict :=
  [("accept", Verdict.accept), ("drop", .drop), ("reject", .reject), ("return", .ret),
    ("queue", .queue), ("masquerade", .masquerade)].lookup word

/-- What the reader of a rule expects. -/
inductive Expect where
  /-- A match, a log statement or the verdict. -/
  | statement
  /-- The key after `meta`. -/
  | metaKey
  /-- `eq`, `ne` or the name after `iifname` or `oifname`. -/
  | operator (output : Bool)
  | name (output negated : Bool)
  /-- `prefix` after `log`, or a statement. -/
  | logPrefix
  | logText
  /-- The value after `status`, such as `dnat`. -/
  | status
  /-- The target after `dnat`. -/
  | target
  /-- Nothing after the verdict. -/
  | nothing
deriving DecidableEq, Repr

namespace Rule

def addName (rule : Rule) (output negated : Bool) (name : String) : Rule :=
  if output then { rule with oifname := rule.oifname ++ [⟨name, negated⟩] }
  else { rule with iifname := rule.iifname ++ [⟨name, negated⟩] }

def addOther (rule : Rule) (tokens : List Token) : Rule :=
  { rule with others := rule.others ++ tokens }

def addTarget (rule : Rule) (token : Token) : Rule :=
  match rule.verdict with
  | some (.dnat target) => { rule with verdict := some (.dnat (target ++ [token])) }
  | _ => rule

/-- An interface name, quoted or a word that is no verdict. -/
def readName (rule : Rule) (output negated : Bool) : Token → Option (Rule × Expect)
  | .quoted text => some (rule.addName output negated text, .statement)
  | .word word =>
      if (verdictWord word).isSome then none
      else some (rule.addName output negated word, .statement)
  | .mark _ => none

def readStatement (rule : Rule) : Token → Option (Rule × Expect)
  | .word word =>
      match verdictWord word with
      | some verdict => some ({ rule with verdict := some verdict }, .nothing)
      | none =>
          if word = "iifname" then some (rule, .operator false)
          else if word = "oifname" then some (rule, .operator true)
          else if word = "meta" then some (rule, .metaKey)
          else if word = "log" then some (rule, .logPrefix)
          else if word = "status" then some (rule.addOther [.word "status"], .status)
          else if word = "dnat" then some ({ rule with verdict := some (.dnat []) }, .target)
          else some (rule.addOther [.word word], .statement)
  | token => some (rule.addOther [token], .statement)

def readToken (rule : Rule) (expect : Expect) (token : Token) : Option (Rule × Expect) :=
  match expect, token with
  | .statement, token => rule.readStatement token
  | .metaKey, .word word =>
      if (verdictWord word).isSome then none
      else if word = "iifname" then some (rule, .operator false)
      else if word = "oifname" then some (rule, .operator true)
      else some (rule.addOther [.word "meta", .word word], .statement)
  | .metaKey, _ => none
  | .operator output, token =>
      if token = .word "eq" then some (rule, .name output false)
      else if token = .word "ne" then some (rule, .name output true)
      else rule.readName output false token
  | .name output negated, token => rule.readName output negated token
  | .logPrefix, token =>
      if token = .word "prefix" then some (rule, .logText) else rule.readStatement token
  | .logText, .mark _ => none
  | .logText, .quoted _ => some (rule, .statement)
  | .logText, .word word => if (verdictWord word).isSome then none else some (rule, .statement)
  | .status, .word word =>
      if (verdictWord word).isSome then none else some (rule.addOther [.word word], .statement)
  | .status, token => some (rule.addOther [token], .statement)
  | .target, .word word =>
      if (verdictWord word).isSome then none else some (rule.addTarget (.word word), .target)
  | .target, token => some (rule.addTarget token, .target)
  | .nothing, _ => none

end Rule

/-- Where a rule may end. -/
def Expect.isEnd : Expect → Bool
  | .statement | .logPrefix | .target | .nothing => true
  | _ => false

def readTokens (tokens : List Token) : Option (Rule × Expect) :=
  tokens.foldlM (fun read token => read.1.readToken read.2 token) ({}, .statement)

def readRule (tokens : List Token) : Option Rule := do
  let (rule, expect) ← readTokens tokens
  if expect.isEnd then some rule else none

/-- The rules of a chain's body, one to a line; nothing where nft refuses it. -/
def ruleTokens (lines : List String) : Option (List (List Token)) := do
  let (s, rules) ← scan .start (lines.flatMap fun line => "    ".toList ++ line.toList ++ ['\n'])
  if s.quoted then none else some (rules ++ [s.flush])

def readRules (lines : List String) : Option (List Rule) := do
  let rules ← ruleTokens lines
  (rules.filter (!·.isEmpty)).mapM readRule

/-! ## Chains -/

/-- What a rule can see of a packet: its interfaces, and whether the other
matches of a rule hold of it. -/
structure Reading (Packet : Type) where
  iifname : Packet → String
  oifname : Packet → String
  holds : List Token → Packet → Bool

variable {Packet : Type}

/-- The matches of a rule are a conjunction. -/
def Rule.matches (R : Reading Packet) (rule : Rule) (p : Packet) : Bool :=
  rule.iifname.all (·.holds (R.iifname p)) && rule.oifname.all (·.holds (R.oifname p)) &&
    (rule.others.isEmpty || R.holds rule.others p)

/-- The first verdict. -/
def firstVerdict (R : Reading Packet) (rules : List Rule) (p : Packet) : Option Verdict :=
  rules.findSome? fun rule => if rule.matches R p then rule.verdict else none

structure Chain where
  name : String
  type : String
  hook : String
  priority : String
  /-- The verdict of packets that no rule decides. -/
  policy : Verdict
  /-- The text of each rule. -/
  rules : List String
deriving DecidableEq, Repr

/-- The verdict of a base chain; nothing where nft refuses its rules. -/
def Chain.verdict (R : Reading Packet) (chain : Chain) (p : Packet) : Option Verdict :=
  (readRules chain.rules).map fun rules =>
    match firstVerdict R rules p with
    | none | some .ret => chain.policy
    | some verdict => verdict

structure Table where
  family : String
  name : String
  chains : List Chain
deriving DecidableEq, Repr

/-- A command of a script for `nft -f`, which applies a whole script or nothing. -/
inductive Command where
  | flushRuleset
  | destroy (family name : String)
  | add (table : Table)
deriving DecidableEq, Repr

def Command.run (tables : List Table) : Command → List Table
  | .flushRuleset => []
  | .destroy family name => tables.filter fun table => !(table.family == family && table.name == name)
  | .add table => tables ++ [table]

/-- The tables after a script. -/
def runScript (script : List Command) (tables : List Table) : List Table :=
  script.foldl Command.run tables

/-! ## Scanning -/

theorem scan_append {s s' : Scan} {a b : List Char} {rules : List (List Token)}
    (h : scan s a = some (s', rules)) :
    scan s (a ++ b) = (scan s' b).map fun rest => (rest.1, rules ++ rest.2) := by
  induction a generalizing s rules with
  | nil =>
    simp only [scan, Option.some.injEq, Prod.mk.injEq] at h
    obtain ⟨rfl, rfl⟩ := h
    simp
  | cons c a ih =>
    simp only [scan, Option.bind_eq_bind, Option.bind_eq_some_iff, Option.pure_def,
      Option.some.injEq, Prod.mk.injEq, Prod.exists] at h
    obtain ⟨s1, ended, hs, s2, rest, ha, rfl, rfl⟩ := h
    simp only [List.cons_append, scan, hs, ih ha, Option.bind_eq_bind, Option.bind_some,
      Option.pure_def]
    cases scan s2 b <;> simp

theorem scan_append_none {s : Scan} {a b : List Char} (h : scan s a = none) :
    scan s (a ++ b) = none := by
  induction a generalizing s with
  | nil => simp [scan] at h
  | cons c a ih =>
    simp only [scan, Option.bind_eq_bind, Option.bind_eq_none_iff, Option.pure_def] at h
    simp only [List.cons_append, scan, Option.bind_eq_bind, Option.bind_eq_none_iff]
    intro first hf
    have := h first hf
    cases hr : scan first.1 a with
    | none => simp [ih hr]
    | some rest => simp [hr] at this

theorem scan_append_eq_some {s s' : Scan} {a b : List Char} {rules : List (List Token)}
    (h : scan s (a ++ b) = some (s', rules)) :
    ∃ mid first rest, scan s a = some (mid, first) ∧ scan mid b = some (s', rest) ∧
      rules = first ++ rest := by
  cases ha : scan s a with
  | none => simp [scan_append_none ha] at h
  | some read =>
    rw [scan_append ha] at h
    simp only [Option.map_eq_some_iff, Prod.mk.injEq, Prod.exists] at h
    obtain ⟨mid, rest, hb, rfl, rfl⟩ := h
    exact ⟨read.1, read.2, rest, rfl, hb, rfl⟩

/-- After the end of a line that is not inside a quoted string, a rule begins. -/
theorem scan_newline {s s' : Scan} {text : List Char} {rules : List (List Token)}
    (h : scan s (text ++ ['\n']) = some (s', rules)) (hq : s'.quoted = false) : s' = .start := by
  obtain ⟨mid, first, rest, -, hl, -⟩ := scan_append_eq_some h
  simp only [scan, Scan.step, Option.bind_eq_bind, Option.bind_eq_some_iff, Option.pure_def,
    Option.some.injEq, Prod.mk.injEq, Prod.exists] at hl
  obtain ⟨s1, ended, hl, _, _, ⟨rfl, rfl⟩, rfl, -⟩ := hl
  split_ifs at hl <;> simp only [Option.some.injEq, Prod.mk.injEq] at hl <;>
    obtain ⟨rfl, -⟩ := hl <;> first | rfl | simp_all

/-- The characters of a word. -/
theorem scan_word {tokens : List Token} {chars word : List Char}
    (h : ∀ c ∈ word, isWordChar c = true) :
    scan ⟨tokens, chars, false⟩ word = some (⟨tokens, chars ++ word, false⟩, []) := by
  induction word generalizing chars with
  | nil => simp [scan]
  | cons c word ih =>
    simp only [List.mem_cons, forall_eq_or_imp] at h
    have hc : Scan.step ⟨tokens, chars, false⟩ c = some (⟨tokens, chars ++ [c], false⟩, []) := by
      have hw := h.1
      simp only [isWordChar, Bool.and_eq_true, Bool.not_eq_true', bne_iff_ne, ne_eq,
        decide_eq_true_eq] at hw
      obtain ⟨⟨⟨⟨⟨⟨⟨h1, h2⟩, h3⟩, h4⟩, h5⟩, h6⟩, h7⟩, h8⟩ := hw
      have hn : ¬(c = '\n' ∨ c = ';') := by
        rintro (rfl | rfl)
        · exact absurd h1 (by decide)
        · exact h5 rfl
      have hb : ¬(c = ' ' ∨ c = '\t') := by
        rintro (rfl | rfl) <;> exact absurd h1 (by decide)
      simp only [Scan.step, Bool.false_eq_true, if_false, h4, hn, hb, h3, h.1, if_true]
    simp [scan, hc, ih h.2]

/-- The characters of a quoted string. -/
theorem scan_quoted {tokens : List Token} {chars text : List Char} (h : '"' ∉ text) :
    scan ⟨tokens, chars, true⟩ text = some (⟨tokens, chars ++ text, true⟩, []) := by
  induction text generalizing chars with
  | nil => simp [scan]
  | cons c text ih =>
    simp only [List.mem_cons, not_or] at h
    simp [scan, Scan.step, Ne.symm h.1, ih h.2]

/-- Every quotation mark begins or ends a quoted string. -/
theorem scan_quotes {s s' : Scan} {text : List Char} {rules : List (List Token)}
    (h : scan s text = some (s', rules)) :
    s'.quoted = (s.quoted != (text.count '"' % 2 == 1)) := by
  induction text generalizing s rules with
  | nil =>
    simp only [scan, Option.some.injEq, Prod.mk.injEq] at h
    simp [h.1]
  | cons c text ih =>
    simp only [scan, Option.bind_eq_bind, Option.bind_eq_some_iff, Option.pure_def,
      Option.some.injEq, Prod.mk.injEq, Prod.exists] at h
    obtain ⟨s1, ended, hs, s2, rest, ha, rfl, -⟩ := h
    have hstep : s1.quoted = (s.quoted != (c == '"')) := by
      unfold Scan.step at hs
      split_ifs at hs <;> simp only [Option.some.injEq, Prod.mk.injEq] at hs <;>
        obtain ⟨rfl, -⟩ := hs <;> simp_all [Scan.start]
    rw [ih ha, hstep, List.count_cons]
    by_cases hc : c = '"'
    · have hmod : ((List.count '"' text + 1) % 2 == 1) = !(List.count '"' text % 2 == 1) := by
        rcases Nat.mod_two_eq_zero_or_one (List.count '"' text) with h0 | h0 <;>
          simp [Nat.add_mod, h0]
      simp only [hc, beq_self_eq_true, if_true, hmod]
      cases s.quoted <;> simp
    · have hc' : (c == '"') = false := beq_eq_false_iff_ne.mpr hc
      simp [hc']

/-! ## The lines of a chain -/

/-- The text of a chain's body. -/
def body (lines : List String) : List Char :=
  lines.flatMap fun line => "    ".toList ++ line.toList ++ ['\n']

@[simp]
theorem body_nil : body [] = [] := rfl

@[simp]
theorem body_append {a b : List String} : body (a ++ b) = body a ++ body b := by
  simp [body]

/-- A line that is one rule by itself. -/
def Reads (line : String) (rule : Rule) : Prop :=
  ∃ tokens, scan .start ("    ".toList ++ line.toList ++ ['\n']) = some (.start, [tokens]) ∧
    tokens ≠ [] ∧ readRule tokens = some rule

/-- Lines after which no quoted string is open are whole rules. -/
theorem scan_body_start {lines : List String} {s : Scan} {rules : List (List Token)}
    (h : scan .start (body lines) = some (s, rules)) (hq : s.quoted = false) : s = .start := by
  rcases List.eq_nil_or_concat lines with rfl | ⟨front, line, rfl⟩
  · simp only [body_nil, scan, Option.some.injEq, Prod.mk.injEq] at h
    exact h.1.symm
  · have hb : body (front.concat line) = (body front ++ ("    ".toList ++ line.toList)) ++ ['\n'] := by
      simp [body]
    rw [hb] at h
    exact scan_newline h hq

theorem scan_body_reads {lines : List String} {rules : List Rule}
    (h : List.Forall₂ Reads lines rules) :
    ∃ tokens, scan .start (body lines) = some (.start, tokens) ∧ (∀ t ∈ tokens, t ≠ []) ∧
      tokens.mapM readRule = some rules := by
  induction h with
  | nil => exact ⟨[], rfl, by simp, rfl⟩
  | cons hline _ ih =>
    obtain ⟨t, hs, hne, hr⟩ := hline
    obtain ⟨tokens, hs', hne', hr'⟩ := ih
    refine ⟨t :: tokens, ?_, by simpa using ⟨hne, hne'⟩, by simp [hr, hr']⟩
    simp only [body, List.flatMap_cons] at hs' ⊢
    rw [scan_append hs, hs']
    rfl

theorem readRules_eq {lines : List String} :
    readRules lines = (scan .start (body lines)).bind fun read =>
      if read.1.quoted then none
      else ((read.2 ++ [read.1.flush]).filter (!·.isEmpty)).mapM readRule := by
  unfold readRules ruleTokens body
  cases scan .start (lines.flatMap fun line => "    ".toList ++ line.toList ++ ['\n']) with
  | none => rfl
  | some read =>
    simp only [Option.bind_eq_bind, Option.bind_some]
    split <;> rfl

theorem filter_nonempty {tokens : List (List Token)} (h : ∀ t ∈ tokens, t ≠ []) :
    tokens.filter (!·.isEmpty) = tokens := by
  rw [List.filter_eq_self]
  intro t ht
  simpa using h t ht

/-- Rules that are lines by themselves may follow any lines. -/
theorem readRules_append {lines generated : List String} {rules : List Rule}
    (h : List.Forall₂ Reads generated rules) :
    readRules (lines ++ generated) = (readRules lines).map (· ++ rules) := by
  obtain ⟨tokens, hs, hne, hr⟩ := scan_body_reads h
  rw [readRules_eq, readRules_eq, body_append]
  cases hl : scan .start (body lines) with
  | none => rw [scan_append_none hl]; rfl
  | some read =>
    obtain ⟨s, first⟩ := read
    rw [scan_append hl]
    cases hq : s.quoted with
    | true =>
      -- The generated lines have whole quoted strings, so the open one stays open.
      have heven := scan_quotes hs
      cases hg : scan s (body generated) with
      | none => simp [hq]
      | some rest =>
        have hopen := scan_quotes hg
        have hpar : (List.count '"' (body generated) % 2 == 1) = false := by
          simpa [Scan.start] using heven.symm
        rw [hq, hpar] at hopen
        simp [hq, hopen]
    | false =>
      obtain rfl := scan_body_start hl hq
      rw [hs]
      have hflush : Scan.start.flush = [] := rfl
      simp only [Option.map_some, Option.bind_some, Scan.start, Bool.false_eq_true, if_false]
      simp only [Scan.start] at hflush
      simp only [hflush, List.filter_append, filter_nonempty hne, List.mapM_append, hr]
      simp [Option.map_eq_bind, Function.comp_def]

/-- The scanner with tokens before the current rule's. -/
def Scan.after (front : List Token) (s : Scan) : Scan := ⟨front ++ s.tokens, s.chars, s.quoted⟩

theorem Scan.flush_after {front : List Token} {s : Scan} : (s.after front).flush = front ++ s.flush := by
  unfold Scan.flush Scan.after
  split <;> simp

/-- Tokens before the current rule's stay with it until it ends. -/
theorem scan_after (front : List Token) {s s' : Scan} {text : List Char} {rules : List (List Token)}
    (h : scan s text = some (s', rules)) :
    scan (s.after front) text =
      match rules with
      | [] => some (s'.after front, [])
      | rule :: rest => some (s', (front ++ rule) :: rest) := by
  induction text generalizing s rules with
  | nil =>
    simp only [scan, Option.some.injEq, Prod.mk.injEq] at h
    obtain ⟨rfl, rfl⟩ := h
    rfl
  | cons c text ih =>
    simp only [scan, Option.bind_eq_bind, Option.bind_eq_some_iff, Option.pure_def,
      Option.some.injEq, Prod.mk.injEq, Prod.exists] at h
    obtain ⟨s1, ended, hs, s2, rest, ht, rfl, rfl⟩ := h
    have hstep : (s.after front).step c =
        match ended with
        | [] => some (s1.after front, [])
        | rule :: rest => some (s1, (front ++ rule) :: rest) := by
      unfold Scan.step at hs ⊢
      have hq : (s.after front).quoted = s.quoted := rfl
      rw [hq, Scan.flush_after]
      split_ifs at hs ⊢ <;> simp only [Option.some.injEq, Prod.mk.injEq] at hs <;>
        obtain ⟨rfl, rfl⟩ := hs <;> simp [Scan.after]
    cases ended with
    | nil =>
      simp only [scan, hstep, Option.bind_eq_bind, Option.bind_some, ih ht]
      cases rest <;> simp
    | cons rule more => simp [scan, hstep, ht]

/-- What a rule says after what was read before it. -/
def Rule.append (rule rest : Rule) : Rule :=
  ⟨rule.iifname ++ rest.iifname, rule.oifname ++ rest.oifname, rule.others ++ rest.others, rest.verdict⟩

theorem readName_append {rule rest : Rule} {output negated : Bool} {token : Token} :
    (rule.append rest).readName output negated token =
      (rest.readName output negated token).map fun read => (rule.append read.1, read.2) := by
  have hadd : ∀ name, (rule.append rest).addName output negated name =
      rule.append (rest.addName output negated name) := by
    intro name
    cases output <;> simp [Rule.addName, Rule.append]
  cases token with
  | word word =>
    simp only [Rule.readName, hadd]
    split <;> rfl
  | quoted text => simp [Rule.readName, hadd]
  | mark c => rfl

theorem readStatement_append {rule rest : Rule} {token : Token} :
    (rule.append rest).readStatement token =
      (rest.readStatement token).map fun read => (rule.append read.1, read.2) := by
  have hadd : ∀ tokens, (rule.append rest).addOther tokens = rule.append (rest.addOther tokens) := by
    simp [Rule.addOther, Rule.append]
  cases token with
  | word word =>
    simp only [Rule.readStatement, hadd]
    split
    · rfl
    · split_ifs <;> rfl
  | quoted text => simp [Rule.readStatement, hadd]
  | mark c => simp [Rule.readStatement, hadd]

theorem readToken_append {rule rest : Rule} {expect : Expect} {token : Token} :
    (rule.append rest).readToken expect token =
      (rest.readToken expect token).map fun read => (rule.append read.1, read.2) := by
  have hother : ∀ tokens, (rule.append rest).addOther tokens = rule.append (rest.addOther tokens) := by
    simp [Rule.addOther, Rule.append]
  have htarget : (rule.append rest).addTarget token = rule.append (rest.addTarget token) := by
    unfold Rule.addTarget
    have : (rule.append rest).verdict = rest.verdict := rfl
    rw [this]
    split <;> rfl
  cases expect with
  | statement => exact readStatement_append
  | name output negated => exact readName_append
  | operator output =>
    simp only [Rule.readToken, readName_append]
    split_ifs <;> rfl
  | logPrefix =>
    simp only [Rule.readToken, readStatement_append]
    split_ifs <;> rfl
  | metaKey =>
    cases token <;> simp only [Rule.readToken, hother]
    · split_ifs <;> rfl
    · rfl
    · rfl
  | logText =>
    cases token <;> simp only [Rule.readToken]
    · split_ifs <;> rfl
    · rfl
    · rfl
  | status =>
    cases token <;> simp only [Rule.readToken, hother]
    · split_ifs <;> rfl
    · rfl
    · rfl
  | target =>
    cases token <;> simp only [Rule.readToken, htarget]
    · split_ifs <;> rfl
    · rfl
    · rfl
  | nothing => rfl

theorem readTokens_append (rule rest : Rule) (expect : Expect) (tokens : List Token) :
    tokens.foldlM (fun (read : Rule × Expect) token => read.1.readToken read.2 token)
        (rule.append rest, expect) =
      (tokens.foldlM (fun (read : Rule × Expect) token => read.1.readToken read.2 token)
        (rest, expect)).map fun read => (rule.append read.1, read.2) := by
  induction tokens generalizing rest expect with
  | nil => rfl
  | cons token tokens ih =>
    simp only [List.foldlM_cons, readToken_append, Option.bind_eq_bind]
    cases rest.readToken expect token with
    | none => rfl
    | some read => exact ih read.1 read.2

/-- A rule that begins with an interface name. -/
theorem readRule_name {output : Bool} {name : String} {tail : List Token} {rest : Rule}
    (h : readRule tail = some rest) :
    readRule (.word (if output then "oifname" else "iifname") :: .quoted name :: tail) =
      some ((({} : Rule).addName output false name).append rest) := by
  have hstart : readTokens (.word (if output then "oifname" else "iifname") :: .quoted name :: tail) =
      tail.foldlM (fun (read : Rule × Expect) token => read.1.readToken read.2 token)
        ((({} : Rule).addName output false name).append {}, .statement) := by
    cases output <;> rfl
  simp only [readRule, Option.bind_eq_bind, Option.bind_eq_some_iff, Prod.exists,
    Option.ite_none_right_eq_some, Option.some.injEq] at h ⊢
  obtain ⟨rule, expect, ht, he, rfl⟩ := h
  refine ⟨_, expect, ?_, he, rfl⟩
  rw [hstart, readTokens_append]
  rw [readTokens] at ht
  rw [ht]
  rfl

/-- The rest of a line after a quoted name: the closing quotation mark and a rule. -/
def ReadsRest (text : List Char) (rest : Rule) : Prop :=
  text.head? = some '"' ∧
    ∃ tokens, scan .start (text.tail ++ ['\n']) = some (.start, [tokens]) ∧
      readRule tokens = some rest

/-- A line that begins with a quoted interface name. -/
theorem reads_name (output : Bool) (text : String) {line name : String} {rest : Rule}
    (hl : line = (if output then "oifname \"" else "iifname \"") ++ (name ++ text))
    (hn : '"' ∉ name.toList) (hr : ReadsRest text.toList rest) :
    Reads line ((({} : Rule).addName output false name).append rest) := by
  obtain ⟨hq, tokens, hs, hr⟩ := hr
  obtain ⟨text', ht⟩ : ∃ text', text.toList = '"' :: text' := by
    cases h : text.toList with
    | nil => simp [h] at hq
    | cons c text' =>
      obtain rfl : c = '"' := by simpa [h] using hq
      exact ⟨text', rfl⟩
  let key : Token := .word (if output then "oifname" else "iifname")
  refine ⟨key :: .quoted name :: tokens, ?_, by simp, readRule_name hr⟩
  have hkey : scan .start ("    ".toList ++
      (if output then "oifname \"" else "iifname \"" : String).toList) =
        some (⟨[key], [], true⟩, []) := by
    cases output <;> decide +kernel
  have hopen : scan ⟨[key], [], true⟩ (name.toList ++ ['"']) =
      some (⟨[key, .quoted name], [], false⟩, []) := by
    rw [scan_append (scan_quoted hn)]
    simp [scan, Scan.step]
  have hrest : scan ⟨[key, .quoted name], [], false⟩ (text' ++ ['\n']) =
      some (.start, [key :: .quoted name :: tokens]) := by
    rw [ht, List.tail_cons] at hs
    exact scan_after [key, .quoted name] hs
  have hline : "    ".toList ++ line.toList ++ ['\n'] = ("    ".toList ++
      (if output then "oifname \"" else "iifname \"" : String).toList) ++
        ((name.toList ++ ['"']) ++ (text' ++ ['\n'])) := by
    simp [hl, ht]
  rw [hline, scan_append hkey, scan_append hopen, hrest]
  rfl

/-- A word that begins no statement of its own. -/
structure IsPlainWord (word : String) : Prop where
  nonempty : word.toList ≠ []
  chars : ∀ c ∈ word.toList, isWordChar c = true
  verdict : verdictWord word = none
  key : word ∉ ["iifname", "oifname", "meta", "log", "status", "dnat"]

/-- A word after the matches of a rule and before its rest. -/
theorem readsRest_word_after (before after : List Char) (front tail : List Token) (first rest : Rule)
    {word : String} (hw : IsPlainWord word)
    (hb : scan .start before = some (⟨front, [], false⟩, []))
    (hf : readTokens front = some (first, .statement)) (hv : first.verdict = none)
    (ha : scan .start (after ++ ['\n']) = some (.start, [tail]))
    (hr : readRule tail = some rest) :
    ReadsRest ('"' :: (before ++ (word.toList ++ ' ' :: after)))
      ((first.addOther [.word word]).append rest) := by
  refine ⟨rfl, front ++ .word word :: tail, ?_, ?_⟩
  · have hword : scan ⟨front, [], false⟩ (word.toList ++ [' ']) =
        some (⟨front ++ [.word word], [], false⟩, []) := by
      rw [scan_append (scan_word hw.chars)]
      have hq : (' ' : Char) ≠ '"' := by decide
      simp [scan, Scan.step, Scan.flush, hq, hw.nonempty]
    have htail := scan_after (front ++ [.word word]) ha
    have hline : ('"' :: (before ++ (word.toList ++ ' ' :: after))).tail ++ ['\n'] =
        before ++ ((word.toList ++ [' ']) ++ (after ++ ['\n'])) := by simp
    rw [hline, scan_append hb, scan_append hword]
    simp only [Scan.after, Scan.start, List.append_nil] at htail
    rw [htail]
    simp [Scan.start]
  · have hword : first.readStatement (.word word) =
        some (first.addOther [.word word], .statement) := by
      have hk := hw.key
      simp only [List.mem_cons, List.not_mem_nil, or_false, not_or] at hk
      simp [Rule.readStatement, hw.verdict, hk]
    simp only [readRule, Option.bind_eq_bind, Option.bind_eq_some_iff, Prod.exists,
      Option.ite_none_right_eq_some, Option.some.injEq] at hr ⊢
    obtain ⟨rule, expect, ht, he, rfl⟩ := hr
    refine ⟨_, expect, ?_, he, rfl⟩
    have happend := readTokens_append (first.addOther [.word word]) {} .statement tail
    rw [readTokens] at hf ht ⊢
    rw [ht] at happend
    rw [List.foldlM_append, hf, Option.bind_eq_bind, Option.bind_some, List.foldlM_cons,
      Option.bind_eq_bind]
    have hstep : Rule.readToken first .statement (.word word) =
        some ((first.addOther [.word word]).append {}, .statement) := by
      rw [Rule.readToken, hword]
      simp [Rule.append, Rule.addOther, hv]
    rw [hstep, Option.bind_some, happend]
    rfl

/-- A word between other matches and the rest of a rule. -/
theorem readsRest_word (before after : List Char) (front tail others : List Token) (rest : Rule)
    {word : String} (hw : IsPlainWord word)
    (hb : scan .start before = some (⟨front, [], false⟩, []))
    (hf : readTokens front = some ({ others := others }, .statement))
    (ha : scan .start (after ++ ['\n']) = some (.start, [tail]))
    (hr : readRule tail = some rest) :
    ReadsRest ('"' :: (before ++ (word.toList ++ ' ' :: after)))
      (({ others := others ++ [.word word] } : Rule).append rest) :=
  readsRest_word_after before after front tail { others := others } rest hw hb hf rfl ha hr

end Nft
