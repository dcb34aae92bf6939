import N2FNest.HttpClient.Bounds

/-! What the client puts on the wire. -/

namespace N2FNest.HttpClient

open Lib Shared Telemetry

variable {client : Client} {trace : Option TraceRef} {body : List UInt8}

theorem breaksLine_eq_false {text : JsString} :
    breaksLine text = false ↔ ∀ unit ∈ text.units, unit ≠ 0x0D ∧ unit ≠ 0x0A := by
  simp [breaksLine]

/-- Units of a kind that line breaks are not break no line. -/
theorem unbroken_of_all {units : List UInt16} {kind : UInt16 → Bool}
    (all : ∀ unit ∈ units, kind unit = true) (carriage : kind 0x0D = false) (feed : kind 0x0A = false) :
    breaksLine ⟨units⟩ = false := by
  refine breaksLine_eq_false.mpr fun unit member => ⟨?_, ?_⟩
  · rintro rfl
    exact Bool.false_ne_true (carriage.symm.trans (all _ member))
  · rintro rfl
    exact Bool.false_ne_true (feed.symm.trans (all _ member))

theorem breaksLine_append {first second : List UInt16} (before : breaksLine ⟨first⟩ = false)
    (after : breaksLine ⟨second⟩ = false) : breaksLine ⟨first ++ second⟩ = false := by
  unfold breaksLine at before after ⊢
  rw [List.any_append, before, after, Bool.or_self]

theorem formatTraceparent_unbroken (ref : TraceRef) : breaksLine (formatTraceparent ref) = false := by
  have traced := unbroken_of_all (valid_iff.mp ref.trace).2.1 rfl rfl
  have spanned := unbroken_of_all (valid_iff.mp ref.span).2.1 rfl rfl
  have flagged : breaksLine (js (if ref.sampled then "01" else "00")) = false := by
    cases ref.sampled <;> rfl
  have version : breaksLine ⟨[0x30, 0x30, 0x2D]⟩ = false := rfl
  have dash : breaksLine ⟨[0x2D]⟩ = false := rfl
  have spelled : formatTraceparent ref = ⟨[0x30, 0x30, 0x2D] ++ (ref.traceId.units ++ ([0x2D] ++
      (ref.spanId.units ++ ([0x2D] ++ (js (if ref.sampled then "01" else "00")).units))))⟩ := rfl
  rw [spelled]
  apply breaksLine_append version
  apply breaksLine_append traced
  apply breaksLine_append dash
  apply breaksLine_append spanned
  exact breaksLine_append dash flagged

/-- The headers of a request, as a server reads them. -/
structure Framed (client : Client) (request : Request) (sent : Sent) : Prop where
  distinct : (sent.headers.map Prod.fst).Nodup
  unbroken : ∀ header ∈ sent.headers, breaksLine header.1 = false ∧ breaksLine header.2 = false
  measured : ∃ length, (js "content-length", length) ∈ sent.headers ∧
    Decimal.natural length.units = sent.body.length
  traced : ∀ ref, request.trace = some (some ref) ↔
    ∃ value, (js "traceparent", value) ∈ sent.headers ∧ parseTraceparent (.string value) = .ok ref

theorem headers_distinct (client : Client) (trace : Option TraceRef) (body : List UInt8) :
    ((headers client trace body).map Prod.fst).Nodup := by
  unfold headers
  cases trace with
  | none => split <;> exact of_decide_eq_true rfl
  | some ref => split <;> exact of_decide_eq_true rfl

theorem headers_unbroken (client : Client) (trace : Option TraceRef) (body : List UInt8) :
    ∀ header ∈ headers client trace body, breaksLine header.1 = false ∧ breaksLine header.2 = false := by
  unfold headers
  refine List.forall_mem_append.mpr ⟨List.forall_mem_append.mpr ⟨List.forall_mem_append.mpr ⟨?_, ?_⟩, ?_⟩, ?_⟩
  · exact List.forall_mem_cons.mpr ⟨⟨rfl, rfl⟩, List.forall_mem_singleton.mpr ⟨rfl, rfl⟩⟩
  · split
    · exact List.forall_mem_nil _
    · exact List.forall_mem_singleton.mpr ⟨rfl, breaksLine_append rfl client.unbroken⟩
  · cases trace with
    | none => exact List.forall_mem_nil _
    | some ref => exact List.forall_mem_singleton.mpr ⟨rfl, formatTraceparent_unbroken ref⟩
  · exact List.forall_mem_singleton.mpr ⟨rfl, unbroken_of_all (Decimal.isDigit_text _) rfl rfl⟩

theorem traceparent_mem {value : JsString} : (js "traceparent", value) ∈ headers client trace body ↔
    ∃ ref, trace = some ref ∧ value = formatTraceparent ref := by
  have accept : js "traceparent" ≠ js "accept" := by decide
  have contentType : js "traceparent" ≠ js "content-type" := by decide
  have authorization : js "traceparent" ≠ js "authorization" := by decide
  have contentLength : js "traceparent" ≠ js "content-length" := by decide
  unfold headers
  simp only [List.mem_append, List.mem_cons, Prod.mk.injEq, List.not_mem_nil, accept, contentType,
    contentLength, false_and, or_false, false_or]
  constructor
  · rintro (bearer | traced)
    · split at bearer
      · cases bearer
      · exact absurd (Prod.mk.inj (List.mem_singleton.mp bearer)).1 authorization
    · cases trace with
      | none => cases traced
      | some ref => exact ⟨ref, rfl, (Prod.mk.inj (List.mem_singleton.mp traced)).2⟩
  · rintro ⟨ref, rfl, rfl⟩
    exact .inr (List.mem_singleton_self _)

theorem Allowed.framed {host : UrlHost} {request : Request} {sent : Sent}
    (allowed : Allowed host client request sent) : Framed client request sent := by
  obtain ⟨trace, traced, written⟩ := allowed.traced
  refine ⟨?_, ?_, ?_, fun ref => ?_⟩
  · rw [written]
    exact headers_distinct client trace request.body
  · rw [written]
    exact headers_unbroken client trace request.body
  · refine ⟨⟨Decimal.text request.body.length⟩, ?_, ?_⟩
    · rw [written]
      exact List.mem_append_right _ (List.mem_singleton_self _)
    · rw [allowed.body]
      exact Decimal.natural_text _
  · rw [written, traced]
    constructor
    · intro same
      cases trace with
      | none => cases same
      | some own =>
        cases same
        exact ⟨_, traceparent_mem.mpr ⟨ref, rfl, rfl⟩, parse_format ref⟩
    · rintro ⟨value, member, parsed⟩
      obtain ⟨own, rfl, rfl⟩ := traceparent_mem.mp member
      rw [parse_format own] at parsed
      cases parsed
      rfl

/-- A path on the client's own origin. -/
def Rooted (path : JsString) : Prop :=
  path.units.head? = some 0x2F ∧ (path.units.drop 1).head? ≠ some 0x2F ∧
    ∀ unit ∈ path.units, unit ≠ 0x5C ∧ unit ≠ 0x0D ∧ unit ≠ 0x0A ∧ unit ≠ 0x23

theorem Request.wellFormed_iff {request : Request} {maxRequest : Nat} :
    request.wellFormed maxRequest = true ↔
      request.method ∈ methods ∧ Rooted request.path ∧ request.body.length ≤ maxRequest := by
  simp only [Request.wellFormed, Rooted, Bool.and_eq_true, decide_eq_true_eq, List.contains_iff_mem,
    beq_iff_eq, bne_iff_ne, Bool.not_eq_true', List.any_eq_false, Bool.or_eq_true, not_or, and_assoc, ne_eq]

/-- A call that is sent: the checks passed when it was made, and what it sends is what they
made of its request. -/
structure Passed (host : UrlHost) (client : Client) (before : List ClientLabel) (id : Nat)
    (request : Request) (sent : Sent) : Prop where
  first : (after host client before).calls id = none
  prepared : prepare host client (after host client before).closed
    (after host client before).active.length false request = .ok sent
  unclosed : .close ∉ before
  room : (after host client before).active.length < 64
  method : request.method ∈ methods ∧ sent.method = request.method
  path : Rooted request.path ∧ host.resolve request.path client.base = some sent.target
  origin : sent.target.origin = client.base.origin
  body : sent.body = request.body ∧ sent.body.length ≤ client.maxRequest
  traced : request.trace ≠ some none

theorem Came.passed {labels : List ClientLabel} {id : Nat} {sent : Sent} {host : UrlHost}
    (came : Came host client labels (id, sent)) :
    ∃ before request rest, labels = before ++ .call id request false false :: rest ∧
      Passed host client before id request sent ∧ Framed client request sent := by
  obtain ⟨before, request, rest, same, first, prepared⟩ := came
  obtain ⟨unclosed, room, -, allowed⟩ := prepare_ok prepared
  obtain ⟨method, path, small⟩ := Request.wellFormed_iff.mp allowed.wellFormed
  obtain ⟨trace, traced, -⟩ := allowed.traced
  refine ⟨before, request, rest, same, ⟨first, prepared, ?_, room, ⟨method, allowed.method⟩,
    ⟨path, allowed.resolved⟩, allowed.origin, ⟨allowed.body, ?_⟩, ?_⟩, allowed.framed⟩
  · intro member
    have kept : Kept host client before (after host client before) := kept_run before
    rw [kept.closed.mpr member] at unclosed
    cases unclosed
  · rw [allowed.body]
    exact small
  · rw [traced]
    cases trace <;> simp

/-- In any run of a client that `create` returned each call is sent at most once, and only one
made before `close` whose checks passed: to the client's own origin, with a body within the
configured limit, and framed by headers that no line break splits, whose content length is the
body's and whose trace reads back as the caller's. -/
theorem sent_within_bounds {host : UrlHost} {config : Config} {client : Client}
    (created : Client.create host config = .ok client) (labels : List ClientLabel) :
    let state := run (ClientState.step host client) .initial labels
    client.Configured host config ∧ (state.sent.map Prod.fst).Nodup ∧
    ∀ id sent, (id, sent) ∈ state.sent →
      ∃ before request rest, labels = before ++ .call id request false false :: rest ∧
        Passed host client before id request sent ∧ Framed client request sent := by
  intro state
  have kept : Kept host client labels state := kept_run labels
  exact ⟨Client.create_ok created, kept.once, fun id sent member => (kept.came _ member).passed⟩

/-- A runtime that knows one origin, and the paths on it. -/
private def oneOrigin : UrlHost where
  parse text := if text = js "http://a" then
      some ⟨js "http:", js "http://a", js "", js "", js "/", js "", js ""⟩ else none
  resolve path base := some { base with pathname := path }

private def oneConfig : Config :=
  ⟨js "http://a", .finite 1000, .finite 10, .finite 10, some (js "key")⟩

private def oneClient : Client :=
  ⟨⟨js "http:", js "http://a", js "", js "", js "/", js "", js ""⟩, 1000, 10, 10, js "key", rfl⟩

/-- A call, one with a path of another origin, and one after `close`. -/
private def posts : List ClientLabel :=
  let post (path : String) : Request := ⟨js "POST", js path, [1, 2], none⟩
  [.call 0 (post "/jobs") false false, .call 1 (post "//b") false false, .close,
    .call 2 (post "/jobs") false false]

theorem one_post_sent :
    (run (ClientState.step oneOrigin oneClient) .initial posts).sent.map Prod.fst = [0] ∧
      ∃ sent before request rest, posts = before ++ .call 0 request false false :: rest ∧
        Passed oneOrigin oneClient before 0 request sent ∧ Framed oneClient request sent := by
  have created : Client.create oneOrigin oneConfig = .ok oneClient := rfl
  have only : (run (ClientState.step oneOrigin oneClient) .initial posts).sent.map Prod.fst = [0] := rfl
  obtain ⟨⟨id, sent⟩, member, first⟩ := List.mem_map.mp (only ▸ List.mem_singleton.mpr rfl)
  subst first
  exact ⟨only, sent, (sent_within_bounds created posts).2.2 0 sent member⟩

end N2FNest.HttpClient
