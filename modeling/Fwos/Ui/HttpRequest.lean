import Fwos.Rust.Result
import Fwos.Rust.Text
import Fwos.Rust.Utf8

/-!
# Requests of the management server

`read_request` reads a connection until its headers have ended, parses them and
reads the body that they announce. The limit on the headers is tested against
their end, and also against all that is buffered while the end is not yet there.

* `requestOf`: the request at the beginning of a byte stream.
* `readRequest_agree_iff`: the streams on which the reads do not matter.
-/

namespace Fwos.Http

open Rust

abbrev Bytes := List UInt8

structure HttpRequest where
  method : String
  path : String
  body : Bytes
  headers : List (String × String)
deriving DecidableEq, Repr

/-- What successive reads of a connection return; after the last it is closed. -/
abbrev Reads := List (Except String Bytes)

def crLf : Bytes := [13, 10]

def headersEnd : Bytes := crLf ++ crLf

def findHeadersEnd : Bytes → Option Nat
  | [] => none
  | byte :: rest =>
      if headersEnd.isPrefixOf (byte :: rest) then some 0
      else (findHeadersEnd rest).map (· + 1)

def maxHeaders : Nat := 64 * 1024

def maxBody : Nat := 1024 * 1024

/-- The end of the headers, what was buffered when it was found, and the reads left. -/
def readHeaders (buf : Bytes) : Reads → Except String (Nat × Bytes × Reads)
  | [] => .error "client closed during headers"
  | .error e :: _ => .error s!"read request: {e}"
  | .ok bytes :: later =>
      if bytes = [] then .error "client closed during headers"
      else
        match findHeadersEnd (buf ++ bytes) with
        | some pos =>
            if maxHeaders < pos then .error "headers too large"
            else .ok (pos, buf ++ bytes, later)
        | none =>
            if maxHeaders < (buf ++ bytes).length then .error "headers too large"
            else readHeaders (buf ++ bytes) later

/-- `str::split("\r\n")` on the characters. -/
def splitCrLf : List Char → List (List Char)
  | [] => [[]]
  | '\r' :: '\n' :: rest => [] :: splitCrLf rest
  | c :: rest =>
      match splitCrLf rest with
      | [] => [[c]]
      | line :: lines => (c :: line) :: lines

structure Head where
  method : String
  path : String
  headers : List (String × String)
  contentLength : Nat
deriving DecidableEq, Repr

def parseHeader (line : String) : Except String (String × String) := do
  let (name, value) ← okOr (splitOnce line ':') "invalid request header"
  return (toAsciiLowercase name, trim value)

def parseHeaders (headers : List (String × String)) :
    List String → Except String (List (String × String))
  | [] => .ok headers
  | line :: lines => do
      let (name, value) ← parseHeader line
      ensure ((headers.lookup name).isNone) "duplicate request header"
      parseHeaders (headers ++ [(name, value)]) lines

def usizeMax : Nat := 2 ^ 64 - 1

def parseContentLength (headers : List (String × String)) : Except String Nat :=
  match headers.lookup "content-length" with
  | some value => okOr (parseUnsigned usizeMax value) "invalid content length"
  | none => .ok 0

/-- The part of `read_request` between its two loops. -/
def parseHead (bytes : Bytes) : Except String Head := do
  let text ← okOr (fromUtf8 bytes) "headers were not UTF-8"
  let lines := (splitCrLf text.toList).map String.ofList
  let parts := splitWhitespace (lines.headD "")
  let headers ← parseHeaders [] lines.tail
  ensure ((headers.lookup "transfer-encoding").isNone) "unsupported transfer encoding"
  let contentLength ← parseContentLength headers
  ensure (contentLength ≤ maxBody) "body too large"
  return {
    method := parts.headD ""
    path := parts.tail.headD "/"
    headers := headers
    contentLength := contentLength
  }

def readBody (contentLength : Nat) (body : Bytes) : Reads → Except String Bytes
  | [] => if body.length < contentLength then .error "client closed during body" else .ok body
  | read :: later =>
      if body.length < contentLength then
        match read with
        | .error e => .error s!"read body: {e}"
        | .ok bytes =>
            if bytes = [] then .error "client closed during body"
            else readBody contentLength (body ++ bytes) later
      else .ok body

def readRequest (reads : Reads) : Except String HttpRequest := do
  let (pos, buf, later) ← readHeaders [] reads
  let head ← parseHead (buf.take pos)
  let body ← readBody head.contentLength (buf.drop (pos + 4)) later
  return {
    method := head.method
    path := head.path
    body := body.take head.contentLength
    headers := head.headers
  }

/-! ## The end of the headers -/

theorem findHeadersEnd_eq_some {buf : Bytes} {pos : Nat} :
    findHeadersEnd buf = some pos ↔
      headersEnd <+: buf.drop pos ∧ ∀ k < pos, ¬ headersEnd <+: buf.drop k := by
  induction buf generalizing pos with
  | nil => simp [findHeadersEnd, headersEnd, crLf]
  | cons byte rest ih =>
      unfold findHeadersEnd
      split
      next here =>
        rw [List.isPrefixOf_iff_prefix] at here
        cases pos with
        | zero => simpa using here
        | succ pos =>
            simp only [Option.some.injEq, Nat.zero_ne_add_one, false_iff, not_and, not_forall]
            exact fun _ => ⟨0, by omega, by simpa using here⟩
      next notHere =>
        rw [List.isPrefixOf_iff_prefix] at notHere
        cases pos with
        | zero => simpa using notHere
        | succ pos =>
            simp only [Option.map_eq_some_iff, Nat.add_right_cancel_iff, exists_eq_right, ih,
              List.drop_succ_cons]
            refine and_congr_right fun _ => ⟨fun before k hk => ?_, fun before k hk => ?_⟩
            · cases k with
              | zero => simpa using notHere
              | succ k => simpa using before k (by omega)
            · simpa using before (k + 1) (by omega)

theorem headersEnd_prefix_take {bytes : Bytes} {n k : Nat} :
    headersEnd <+: (bytes.take n).drop k ↔ headersEnd <+: bytes.drop k ∧ k + 4 ≤ n := by
  rw [List.drop_take, List.prefix_take_iff]
  refine and_congr_right fun found => ?_
  have size : headersEnd.length = 4 := rfl
  omega

theorem findHeadersEnd_take {bytes : Bytes} {n pos : Nat} :
    findHeadersEnd (bytes.take n) = some pos ↔ findHeadersEnd bytes = some pos ∧ pos + 4 ≤ n := by
  rw [findHeadersEnd_eq_some, findHeadersEnd_eq_some, headersEnd_prefix_take]
  constructor
  · rintro ⟨⟨found, fits⟩, before⟩
    refine ⟨⟨found, fun k hk early => before k hk ?_⟩, fits⟩
    exact headersEnd_prefix_take.mpr ⟨early, by omega⟩
  · rintro ⟨⟨found, before⟩, fits⟩
    refine ⟨⟨found, fits⟩, fun k hk early => before k hk ?_⟩
    exact (headersEnd_prefix_take.mp early).1

theorem findHeadersEnd_append {buf more : Bytes} {pos : Nat} :
    findHeadersEnd buf = some pos ↔
      findHeadersEnd (buf ++ more) = some pos ∧ pos + 4 ≤ buf.length := by
  have whole := @findHeadersEnd_take (buf ++ more) buf.length pos
  rwa [List.take_left] at whole

theorem findHeadersEnd_missing {buf more : Bytes} {pos : Nat}
    (found : findHeadersEnd (buf ++ more) = some pos) (missing : buf.length < pos + 4) :
    findHeadersEnd buf = none := by
  rw [Option.eq_none_iff_forall_ne_some]
  intro other early
  obtain ⟨same, fits⟩ := (@findHeadersEnd_append buf more other).mp early
  rw [found] at same
  cases same
  omega

theorem findHeadersEnd_length {bytes : Bytes} {pos : Nat} (h : findHeadersEnd bytes = some pos) :
    pos + 4 ≤ bytes.length := by
  have found := (findHeadersEnd_eq_some.mp h).1.length_le
  rw [List.length_drop] at found
  have size : headersEnd.length = 4 := rfl
  omega

/-! ## Reading the headers -/

/-- A way of cutting the bytes into reads. -/
def Cut (bytes : Bytes) (parts : List Bytes) : Prop :=
  parts.flatten = bytes ∧ ∀ part ∈ parts, part ≠ [] ∧ part.length ≤ 2048

def delivered (parts : List Bytes) : Reads := parts.map .ok

/-- No read leaves more than the limit buffered while the end of the headers is
still missing. -/
def Passes (buffered pos : Nat) (parts : List Bytes) : Prop :=
  ∀ front, front <+: parts →
    buffered + front.flatten.length ≤ maxHeaders ∨ pos + 4 ≤ buffered + front.flatten.length

theorem Passes.step {buffered pos : Nat} {part : Bytes} {parts : List Bytes}
    (h : Passes buffered pos (part :: parts)) : Passes (buffered + part.length) pos parts := by
  intro front lead
  have longer := h (part :: front) (List.cons_prefix_cons.mpr ⟨rfl, lead⟩)
  rwa [List.flatten_cons, List.length_append, ← Nat.add_assoc] at longer

theorem readHeaders_ok {buf buf' : Bytes} {parts : List Bytes} {pos : Nat} {later : Reads}
    (h : readHeaders buf (delivered parts) = .ok (pos, buf', later)) :
    pos ≤ maxHeaders ∧ findHeadersEnd buf' = some pos ∧
      ∃ rest, later = delivered rest ∧ (∀ part ∈ rest, part ∈ parts) ∧
        buf' ++ rest.flatten = buf ++ parts.flatten := by
  induction parts generalizing buf with
  | nil => simp [readHeaders, delivered] at h
  | cons part parts ih =>
      rw [delivered, List.map_cons, readHeaders] at h
      split at h
      next => cases h
      next =>
        split at h
        next end' found =>
          split at h
          next => cases h
          next small =>
            cases h
            exact ⟨by omega, found, parts, rfl, by simp +contextual, by simp⟩
        next =>
          split at h
          next => cases h
          next =>
            obtain ⟨small, found, rest, same, mem, bytes⟩ := ih h
            refine ⟨small, found, rest, same, fun p hp => List.mem_cons_of_mem _ (mem p hp), ?_⟩
            rw [bytes, List.flatten_cons, List.append_assoc]

theorem readHeaders_passes {buf : Bytes} {parts : List Bytes} {pos : Nat}
    (found : findHeadersEnd (buf ++ parts.flatten) = some pos) (missing : buf.length < pos + 4)
    (small : pos ≤ maxHeaders) (more : ∀ part ∈ parts, part ≠ [])
    (passes : Passes buf.length pos parts) :
    ∃ buf' later, readHeaders buf (delivered parts) = .ok (pos, buf', later) := by
  induction parts generalizing buf with
  | nil =>
      have size := findHeadersEnd_length found
      simp only [List.flatten_nil, List.append_nil] at size
      omega
  | cons part parts ih =>
      rw [delivered, List.map_cons, readHeaders, if_neg (more part (by simp))]
      have whole : buf ++ (part :: parts).flatten = (buf ++ part) ++ parts.flatten := by simp
      rw [whole] at found
      by_cases here : pos + 4 ≤ (buf ++ part).length
      · rw [findHeadersEnd_append.mpr ⟨found, here⟩]
        simp only
        rw [if_neg (by omega)]
        exact ⟨_, _, rfl⟩
      · have limit := passes [part] (List.cons_prefix_cons.mpr ⟨rfl, List.nil_prefix⟩)
        simp only [List.flatten_cons, List.flatten_nil, List.append_nil] at limit
        rw [findHeadersEnd_missing found (by omega)]
        rw [List.length_append] at here
        simp only
        rw [if_neg (by rw [List.length_append]; omega)]
        refine ih found (by rw [List.length_append]; omega)
          (fun p hp => more p (List.mem_cons_of_mem _ hp)) ?_
        rw [List.length_append]
        exact passes.step

/-- More than the limit is buffered, and the end of the headers is still missing. -/
theorem readHeaders_refuses {buf : Bytes} {front parts : List Bytes} {pos : Nat}
    (found : findHeadersEnd (buf ++ parts.flatten) = some pos) (lead : front <+: parts)
    (begun : buf.length ≤ maxHeaders) (exceeds : maxHeaders < buf.length + front.flatten.length)
    (missing : buf.length + front.flatten.length < pos + 4) :
    ∃ error, readHeaders buf (delivered parts) = .error error := by
  induction front generalizing buf parts with
  | nil =>
      rw [List.flatten_nil, List.length_nil] at exceeds
      omega
  | cons part front ih =>
      obtain ⟨rest, rfl⟩ := lead
      rw [List.cons_append, delivered, List.map_cons, readHeaders]
      rw [List.cons_append, List.flatten_cons, ← List.append_assoc] at found
      rw [List.flatten_cons, List.length_append] at exceeds missing
      split
      next => exact ⟨_, rfl⟩
      next =>
        rw [findHeadersEnd_missing found (by rw [List.length_append]; omega)]
        simp only
        split
        next => exact ⟨_, rfl⟩
        next room =>
          refine ih found (List.prefix_append front rest) (by omega) ?_ ?_
          · rw [List.length_append]
            omega
          · rw [List.length_append]
            omega

/-! ## Reading the body -/

theorem readBody_ok {size : Nat} {body body' : Bytes} {parts : List Bytes}
    (h : readBody size body (delivered parts) = .ok body') :
    size ≤ body'.length ∧ body' <+: body ++ parts.flatten := by
  induction parts generalizing body with
  | nil =>
      rw [delivered, List.map_nil, readBody] at h
      split at h
      next => cases h
      next enough =>
        cases h
        exact ⟨by omega, List.prefix_append _ _⟩
  | cons part parts ih =>
      rw [delivered, List.map_cons, readBody] at h
      split at h
      next =>
        split at h
        next => cases h
        next =>
          obtain ⟨enough, lead⟩ := ih h
          exact ⟨enough, by rwa [List.flatten_cons, ← List.append_assoc]⟩
      next enough =>
        cases h
        exact ⟨by omega, List.prefix_append _ _⟩

theorem readBody_enough {size : Nat} {body : Bytes} {parts : List Bytes}
    (more : ∀ part ∈ parts, part ≠ []) (enough : size ≤ (body ++ parts.flatten).length) :
    ∃ body', readBody size body (delivered parts) = .ok body' := by
  induction parts generalizing body with
  | nil =>
      rw [List.flatten_nil, List.append_nil] at enough
      rw [delivered, List.map_nil, readBody, if_neg (by omega)]
      exact ⟨_, rfl⟩
  | cons part parts ih =>
      rw [delivered, List.map_cons, readBody]
      split
      next =>
        rw [if_neg (more part (by simp))]
        exact ih (fun p hp => more p (List.mem_cons_of_mem _ hp)) (by simpa using enough)
      next => exact ⟨_, rfl⟩

/-! ## The request of a byte stream -/

/-- The bytes announce a request of this head, whose headers end at this place, and
hold all of its body. -/
structure Announces (bytes : Bytes) (pos : Nat) (head : Head) : Prop where
  found : findHeadersEnd bytes = some pos
  small : pos ≤ maxHeaders
  parsed : parseHead (bytes.take pos) = .ok head
  complete : pos + 4 + head.contentLength ≤ bytes.length

def requestOf (bytes : Bytes) (pos : Nat) (head : Head) : HttpRequest := {
  method := head.method
  path := head.path
  body := (bytes.drop (pos + 4)).take head.contentLength
  headers := head.headers
}

theorem readRequest_announces {bytes : Bytes} {parts : List Bytes} {request : HttpRequest}
    (cut : Cut bytes parts) (h : readRequest (delivered parts) = .ok request) :
    ∃ pos head, Announces bytes pos head ∧ request = requestOf bytes pos head := by
  simp only [readRequest, bind_eq_ok, pure_eq_ok] at h
  obtain ⟨⟨pos, buf, later⟩, read, head, parsed, body, readOn, rfl⟩ := h
  obtain ⟨small, found, rest, rfl, -, whole⟩ := readHeaders_ok read
  rw [List.nil_append, cut.1] at whole
  subst whole
  have size := findHeadersEnd_length found
  obtain ⟨enough, lead⟩ := readBody_ok readOn
  have bodyBytes : buf.drop (pos + 4) ++ rest.flatten = (buf ++ rest.flatten).drop (pos + 4) := by
    rw [List.drop_append_of_le_length size]
  rw [bodyBytes] at lead
  refine ⟨pos, head, ⟨(findHeadersEnd_append.mp found).1, small, ?_, ?_⟩, ?_⟩
  · rwa [List.take_append_of_le_length (by omega)]
  · have longEnough := lead.length_le
    rw [List.length_drop] at longEnough
    rw [List.length_append] at longEnough ⊢
    omega
  · obtain ⟨beyond, same⟩ := lead
    rw [requestOf, ← same, List.take_append_of_le_length enough]

theorem Announces.unique {bytes : Bytes} {pos pos' : Nat} {head head' : Head}
    (one : Announces bytes pos head) (other : Announces bytes pos' head') :
    pos = pos' ∧ head = head' := by
  have samePos : pos = pos' := Option.some.inj (one.found.symm.trans other.found)
  subst samePos
  exact ⟨rfl, Except.ok.inj (one.parsed.symm.trans other.parsed)⟩

theorem readRequest_passes {bytes : Bytes} {parts : List Bytes} {pos : Nat} {head : Head}
    (cut : Cut bytes parts) (announced : Announces bytes pos head) (passes : Passes 0 pos parts) :
    readRequest (delivered parts) = .ok (requestOf bytes pos head) := by
  have more : ∀ part ∈ parts, part ≠ [] := fun part mem => (cut.2 part mem).1
  have found : findHeadersEnd ([] ++ parts.flatten) = some pos := by
    rw [List.nil_append, cut.1]
    exact announced.found
  obtain ⟨buf, later, read⟩ :=
    readHeaders_passes found (by simp) announced.small more passes
  obtain ⟨-, here, rest, rfl, mem, whole⟩ := readHeaders_ok read
  rw [List.nil_append, cut.1] at whole
  have size := findHeadersEnd_length here
  have parsed : parseHead (buf.take pos) = .ok head := by
    have announcedHead := announced.parsed
    rwa [← whole, List.take_append_of_le_length (by omega)] at announcedHead
  have enough : head.contentLength ≤ (buf.drop (pos + 4) ++ rest.flatten).length := by
    have complete := announced.complete
    rw [← whole, List.length_append] at complete
    rw [List.length_append, List.length_drop]
    omega
  obtain ⟨body, readOn⟩ := readBody_enough (fun part hp => more part (mem part hp)) enough
  -- Some request is read, and the bytes announce only one.
  have some : ∃ request, readRequest (delivered parts) = .ok request := by
    simp only [readRequest, bind_eq_ok, pure_eq_ok]
    exact ⟨_, _, read, head, parsed, body, readOn, rfl⟩
  obtain ⟨request, readAll⟩ := some
  obtain ⟨pos', head', announced', rfl⟩ := readRequest_announces cut readAll
  obtain ⟨rfl, rfl⟩ := announced.unique announced'
  exact readAll

theorem readRequest_refuses {bytes : Bytes} {front parts : List Bytes} {pos : Nat}
    (cut : Cut bytes parts) (found : findHeadersEnd bytes = some pos) (lead : front <+: parts)
    (exceeds : maxHeaders < front.flatten.length) (missing : front.flatten.length < pos + 4) :
    ∃ error, readRequest (delivered parts) = .error error := by
  obtain ⟨error, refused⟩ := readHeaders_refuses (by rwa [List.nil_append, cut.1]) lead
    (by simp) (by simpa using exceeds) (by simpa using missing)
  exact ⟨error, by rw [readRequest, refused]; rfl⟩

/-! ## What a request that was read holds -/

/-- The body after the headers: as many bytes as announced, none where nothing is. -/
def BodyOf (headers : List (String × String)) (after body : Bytes) : Prop :=
  match headers.lookup "content-length" with
  | none => body = []
  | some value =>
      ∃ size, parseUnsigned usizeMax value = some size ∧ size ≤ after.length ∧
        body = after.take size

/-- The request is the one at the beginning of the bytes: its headers are the lines
before the first empty one, each name once, and its body is what they announce. -/
def WellRead (bytes : Bytes) (request : HttpRequest) : Prop :=
  ∃ front after text, bytes = front ++ headersEnd ++ after ∧
    (∀ k < front.length, ¬ headersEnd <+: bytes.drop k) ∧
    fromUtf8 front = some text ∧
    ((splitCrLf text.toList).map String.ofList).tail.map parseHeader = request.headers.map .ok ∧
    (request.headers.map Prod.fst).Nodup ∧
    BodyOf request.headers after request.body

theorem parseHeaders_ok {headers headers' : List (String × String)} {lines : List String}
    (h : parseHeaders headers lines = .ok headers') :
    (∃ more, headers' = headers ++ more ∧ lines.map parseHeader = more.map .ok) ∧
      ((headers.map Prod.fst).Nodup → (headers'.map Prod.fst).Nodup) := by
  induction lines generalizing headers with
  | nil =>
      cases h
      exact ⟨⟨[], by simp, rfl⟩, id⟩
  | cons line lines ih =>
      rw [parseHeaders, bind_eq_ok] at h
      obtain ⟨⟨name, value⟩, parsed, h⟩ := h
      simp only [bind_eq_ok, ensure_eq_ok, exists_const] at h
      obtain ⟨fresh, h⟩ := h
      obtain ⟨⟨more, rfl, same⟩, distinct⟩ := ih h
      refine ⟨⟨(name, value) :: more, by simp, by simp [parsed, same]⟩, fun before => distinct ?_⟩
      rw [Option.isNone_iff_eq_none, List.lookup_eq_none_iff] at fresh
      rw [List.map_append, List.nodup_append]
      refine ⟨before, by simp, fun a mem b new => ?_⟩
      obtain ⟨pair, inHeaders, rfl⟩ := List.mem_map.mp mem
      rw [List.map_cons, List.map_nil, List.mem_singleton] at new
      rw [new]
      intro equal
      simpa [equal] using fresh pair inHeaders

theorem bodyOf_announced {headers : List (String × String)} {size : Nat} {after : Bytes}
    (announced : parseContentLength headers = .ok size) (enough : size ≤ after.length) :
    BodyOf headers after (after.take size) := by
  unfold parseContentLength at announced
  unfold BodyOf
  split at announced
  next value given =>
    simp only [given]
    exact ⟨size, okOr_eq_ok.mp announced, enough, rfl⟩
  next absent =>
    cases announced
    simp only [absent]
    exact List.take_zero

theorem wellRead_requestOf {bytes : Bytes} {pos : Nat} {head : Head}
    (announced : Announces bytes pos head) : WellRead bytes (requestOf bytes pos head) := by
  obtain ⟨⟨after, found⟩, before⟩ := findHeadersEnd_eq_some.mp announced.found
  have complete := announced.complete
  have rest : bytes.drop (pos + 4) = after := by
    rw [← List.drop_drop, ← found]
    rfl
  have parsed := announced.parsed
  simp only [parseHead, bind_eq_ok, pure_eq_ok, okOr_eq_ok, ensure_eq_ok] at parsed
  obtain ⟨text, decoded, headers, parsed, -, -, size, sized, -, -, rfl⟩ := parsed
  obtain ⟨⟨more, same, lines⟩, distinct⟩ := parseHeaders_ok parsed
  rw [List.nil_append] at same
  subst same
  refine ⟨bytes.take pos, after, text, ?_, ?_, decoded, lines, distinct (by simp), ?_⟩
  · rw [List.append_assoc, found, List.take_append_drop]
  · intro k hk
    rw [List.length_take] at hk
    exact before k (by omega)
  · rw [requestOf, rest]
    have enough : pos + 4 + size ≤ bytes.length := complete
    refine bodyOf_announced sized ?_
    rw [← rest, List.length_drop]
    omega

/-! ## Two ways of cutting -/

/-- The bytes announce a request whose headers end so close to the limit that a read
can leave more than the limit buffered before their end is there. -/
def EndsAtLimit (bytes : Bytes) : Prop :=
  ∃ pos head, Announces bytes pos head ∧ maxHeaders < pos + 3

/-- The same request, or a failure in both. -/
def Agree (one other : Except String HttpRequest) : Prop := one.toOption = other.toOption

theorem agree_of_ok_iff {one other : Except String HttpRequest}
    (h : ∀ request, one = .ok request ↔ other = .ok request) : Agree one other := by
  cases one with
  | ok request => rw [(h request).mp rfl, Agree]
  | error e =>
      cases other with
      | ok request => cases (h request).mpr rfl
      | error e' => rfl

theorem passes_of_end_before_limit {parts : List Bytes} {pos : Nat} (early : pos + 3 ≤ maxHeaders) :
    Passes 0 pos parts := by
  intro front lead
  omega

theorem readRequest_of_not_endsAtLimit {bytes : Bytes} {one other : List Bytes}
    {request : HttpRequest} (cut : Cut bytes one) (cut' : Cut bytes other)
    (away : ¬ EndsAtLimit bytes) (h : readRequest (delivered one) = .ok request) :
    readRequest (delivered other) = .ok request := by
  obtain ⟨pos, head, announced, rfl⟩ := readRequest_announces cut h
  refine readRequest_passes cut' announced (passes_of_end_before_limit ?_)
  by_contra late
  exact away ⟨pos, head, announced, by omega⟩

/-! ## Reads at the limit -/

/-- The bytes in reads that fill the buffer. -/
def fullReads (bytes : Bytes) : List Bytes :=
  if bytes = [] then [] else bytes.take 2048 :: fullReads (bytes.drop 2048)
termination_by bytes.length
decreasing_by
  rename_i more
  have size := List.length_pos_of_ne_nil more
  rw [List.length_drop]
  omega

theorem cut_fullReads (bytes : Bytes) : Cut bytes (fullReads bytes) := by
  induction bytes using fullReads.induct with
  | case1 => simp [fullReads, Cut]
  | case2 bytes more ih =>
      rw [fullReads, if_neg more]
      refine ⟨by rw [List.flatten_cons, ih.1, List.take_append_drop], fun part mem => ?_⟩
      rcases List.mem_cons.mp mem with rfl | later
      · refine ⟨?_, by rw [List.length_take]; omega⟩
        simpa [List.take_eq_nil_iff] using more
      · exact ih.2 part later

theorem fullReads_prefix {bytes : Bytes} {front : List Bytes} (lead : front <+: fullReads bytes) :
    front.flatten = bytes ∨ 2048 ∣ front.flatten.length := by
  induction bytes using fullReads.induct generalizing front with
  | case1 =>
      rw [fullReads, if_pos rfl, List.prefix_nil] at lead
      exact .inl (by rw [lead]; rfl)
  | case2 bytes more ih =>
      rw [fullReads, if_neg more] at lead
      cases front with
      | nil => exact .inr (by simp)
      | cons part front =>
          obtain ⟨rfl, leads⟩ := List.cons_prefix_cons.mp lead
          rw [List.flatten_cons]
          rcases ih leads with all | full
          · exact .inl (by rw [all, List.take_append_drop])
          · by_cases long : 2048 ≤ bytes.length
            · right
              rw [List.length_append, List.length_take_of_le long]
              exact Nat.dvd_add (dvd_refl 2048) full
            · left
              rw [List.drop_eq_nil_of_le (by omega), fullReads, if_pos rfl,
                List.prefix_nil] at leads
              rw [leads, List.take_of_length_le (by omega)]
              simp

theorem passes_fullReads {bytes : Bytes} {pos : Nat} (size : pos + 4 ≤ bytes.length)
    (small : pos ≤ maxHeaders) : Passes 0 pos (fullReads bytes) := by
  intro front lead
  unfold maxHeaders at small ⊢
  rcases fullReads_prefix lead with all | full
  · rw [all]
    omega
  · omega

/-- One byte more than the limit first. -/
def readsAtLimit (bytes : Bytes) : List Bytes :=
  fullReads (bytes.take (maxHeaders + 1)) ++ fullReads (bytes.drop (maxHeaders + 1))

theorem cut_readsAtLimit (bytes : Bytes) : Cut bytes (readsAtLimit bytes) := by
  have front := cut_fullReads (bytes.take (maxHeaders + 1))
  have back := cut_fullReads (bytes.drop (maxHeaders + 1))
  refine ⟨by rw [readsAtLimit, List.flatten_append, front.1, back.1, List.take_append_drop], ?_⟩
  intro part mem
  rcases List.mem_append.mp mem with early | late
  · exact front.2 part early
  · exact back.2 part late

theorem readRequest_at_limit {bytes : Bytes} (limit : EndsAtLimit bytes) :
    ∃ request error, readRequest (delivered (fullReads bytes)) = .ok request ∧
      readRequest (delivered (readsAtLimit bytes)) = .error error := by
  obtain ⟨pos, head, announced, late⟩ := limit
  have size := findHeadersEnd_length announced.found
  have small := announced.small
  have accepted := readRequest_passes (cut_fullReads bytes) announced
    (passes_fullReads size small)
  have buffered : (fullReads (bytes.take (maxHeaders + 1))).flatten.length = maxHeaders + 1 := by
    rw [(cut_fullReads _).1, List.length_take_of_le (by omega)]
  obtain ⟨error, refused⟩ := readRequest_refuses (cut_readsAtLimit bytes) announced.found
    (List.prefix_append _ _) (by omega) (by omega)
  exact ⟨_, error, accepted, refused⟩

/-- The reads do not matter exactly when no accepted headers end at the limit; what is
read is well read in any case. -/
theorem readRequest_agree_iff (bytes : Bytes) :
    ((∀ one other, Cut bytes one → Cut bytes other →
        Agree (readRequest (delivered one)) (readRequest (delivered other))) ∧
      ∀ parts request, Cut bytes parts → readRequest (delivered parts) = .ok request →
        WellRead bytes request) ↔ ¬ EndsAtLimit bytes := by
  constructor
  · rintro ⟨agree, -⟩ limit
    obtain ⟨request, error, accepted, refused⟩ := readRequest_at_limit limit
    have same := agree _ _ (cut_fullReads bytes) (cut_readsAtLimit bytes)
    rw [Agree, accepted, refused] at same
    cases same
  · intro away
    refine ⟨fun one other cut cut' => ?_, fun parts request cut h => ?_⟩
    · exact agree_of_ok_iff fun request => ⟨readRequest_of_not_endsAtLimit cut cut' away,
        readRequest_of_not_endsAtLimit cut' cut away⟩
    · obtain ⟨pos, head, announced, rfl⟩ := readRequest_announces cut h
      exact wellRead_requestOf announced

/-! ## A request line at the limit -/

theorem utf8Chars_ascii {bytes : Bytes} (ascii : ∀ b ∈ bytes, b.toNat < 0x80) :
    utf8Chars bytes = bytes.map fun b => some (Char.ofNat b.toNat) := by
  induction bytes with
  | nil => simp [utf8Chars]
  | cons byte rest ih =>
      have small := ascii byte (by simp)
      have step : utf8Step byte rest = (some (Char.ofNat byte.toNat), 0) := by
        simp [utf8Step, utf8Lead, small, utf8Continuation]
      rw [utf8Chars, step, List.drop_zero, ih fun b mem => ascii b (List.mem_cons_of_mem _ mem)]
      rfl

theorem fromUtf8_ascii {bytes : Bytes} (ascii : ∀ b ∈ bytes, b.toNat < 0x80) :
    fromUtf8 bytes = some (String.ofList (bytes.map fun b => Char.ofNat b.toNat)) := by
  have wellFormed : ∀ chars : List Char, (chars.map some).mapM id = some chars := by
    intro chars
    induction chars with
    | nil => rfl
    | cons c chars ih => simp [List.mapM_cons, ih]
  have decoded : utf8Chars bytes = (bytes.map fun b => Char.ofNat b.toNat).map some := by
    rw [utf8Chars_ascii ascii, List.map_map]
    rfl
  rw [fromUtf8, decoded, wellFormed]
  rfl

/-- A request line of so many letters, and no header. -/
def lineOf (letters : Nat) : Bytes := List.replicate letters 97 ++ headersEnd

theorem findHeadersEnd_lineOf (letters : Nat) : findHeadersEnd (lineOf letters) = some letters := by
  induction letters with
  | zero => rfl
  | succ letters ih =>
      have goesOn : headersEnd.isPrefixOf (97 :: lineOf letters) = false := rfl
      have next : lineOf (letters + 1) = 97 :: lineOf letters := by
        rw [lineOf, List.replicate_succ, List.cons_append]
        rfl
      rw [next, findHeadersEnd, goesOn, ih]
      rfl

theorem splitCrLf_letters (letters : Nat) :
    splitCrLf (List.replicate letters 'a') = [List.replicate letters 'a'] := by
  induction letters with
  | zero => rfl
  | succ letters ih => simp [List.replicate_succ, splitCrLf, ih]

theorem announces_lineOf {letters : Nat} (small : letters ≤ maxHeaders) :
    ∃ head, Announces (lineOf letters) letters head := by
  have decoded : fromUtf8 (List.replicate letters 97) =
      some (String.ofList (List.replicate letters 'a')) := by
    rw [fromUtf8_ascii (by simp +contextual), List.map_replicate]
    rfl
  have parsed : ∃ method path,
      parseHead (List.replicate letters 97) = .ok ⟨method, path, [], 0⟩ := by
    simp only [parseHead, decoded, bind_eq_ok, okOr_eq_ok, ensure_eq_ok, pure_eq_ok]
    refine ⟨_, _, _, rfl, [], ?_, (), rfl, 0, rfl, (), rfl, rfl⟩
    rw [String.toList_ofList, splitCrLf_letters]
    rfl
  obtain ⟨method, path, parsed⟩ := parsed
  refine ⟨⟨method, path, [], 0⟩, findHeadersEnd_lineOf letters, small, ?_, ?_⟩
  · rwa [lineOf, List.take_left' (by simp)]
  · simp [lineOf, headersEnd, crLf]

/-- A line of 65534 letters is read in full reads, and refused when 65537 bytes are
there before its last LF. -/
theorem readRequest_disagrees_at_limit :
    Cut (lineOf 65534) (fullReads (lineOf 65534)) ∧
      Cut (lineOf 65534) (readsAtLimit (lineOf 65534)) ∧
      ¬ Agree (readRequest (delivered (fullReads (lineOf 65534))))
        (readRequest (delivered (readsAtLimit (lineOf 65534)))) := by
  obtain ⟨head, announced⟩ := announces_lineOf (show 65534 ≤ maxHeaders by decide)
  obtain ⟨request, error, accepted, refused⟩ :=
    readRequest_at_limit ⟨65534, head, announced, by decide⟩
  refine ⟨cut_fullReads _, cut_readsAtLimit _, fun agree => ?_⟩
  rw [Agree, accepted, refused] at agree
  cases agree

end Fwos.Http
