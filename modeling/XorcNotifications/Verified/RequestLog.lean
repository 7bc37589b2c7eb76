import XorcNotifications.Lib.ShellWords
import XorcNotifications.Verified.HttpEncoding

/-!
# The logged request

The producer logs the request it answers, with a command line that repeats it.  By then the
header has been taken out of the event, and the line is written with its own quoting: the
quotes of the body are escaped and nothing else is.  What is logged is the request that was
sent exactly if none of this matters.
-/

namespace XorcNotifications

open ShellWords

/-- The URI of the request: with its parameters, if there are any. -/
def HttpRequest.target (event : HttpRequest) : String :=
  if event.params.isEmpty then event.uri else HttpRequester.Requester.uriWithParams event.uri event.params

namespace HttpRequester

/-! ## The request that is built -/

namespace Builder

variable {crates : Crates} {builder : Builder} {built : RequestParts}

theorem parts_of_bind {part : RequestParts → Builder} (ok : builder.bind part = .ok built) :
    ∃ parts, builder = .ok parts ∧ part parts = .ok built := by
  cases builder with
  | error e => cases ok
  | ok parts => exact ⟨parts, rfl, ok⟩

theorem parts_of_header {name value : String} (ok : builder.header crates name value = .ok built) :
    ∃ parts, builder = .ok parts ∧ built = { parts with headers := parts.headers ++ [(name, value)] } := by
  obtain ⟨parts, before, checked⟩ := parts_of_bind ok
  split_ifs at checked
  cases checked
  exact ⟨parts, before, rfl⟩

theorem parts_of_headers {entries : List (String × String)}
    (ok : entries.foldl (fun builder header => builder.header crates header.1 header.2) builder = .ok built) :
    ∃ parts, builder = .ok parts ∧ built = { parts with headers := parts.headers ++ entries } := by
  induction entries generalizing builder with
  | nil => exact ⟨built, ok, by rw [List.append_nil]⟩
  | cons header entries inductionHypothesis =>
    obtain ⟨later, here, rfl⟩ := inductionHypothesis ok
    obtain ⟨parts, before, rfl⟩ := parts_of_header here
    exact ⟨parts, before, by rw [List.append_assoc]; rfl⟩

theorem parts_of_uri {uri : String} (ok : builder.uri crates uri = .ok built) :
    ∃ parts, builder = .ok parts ∧ built = { parts with uri := uri } := by
  obtain ⟨parts, before, checked⟩ := parts_of_bind ok
  split_ifs at checked
  cases checked
  exact ⟨parts, before, rfl⟩

theorem parts_of_body {body : Bytes} {request : Request} (ok : builder.body body = .ok request) :
    ∃ parts, builder = .ok parts ∧ request = ⟨parts, body⟩ := by
  cases builder with
  | error e => cases ok
  | ok parts =>
    cases ok
    exact ⟨parts, rfl, rfl⟩

end Builder

theorem buildRequest_eq (crates : Crates) (event : HttpRequest) :
    Requester.buildRequest crates event =
      ((event.headers.entries.foldl (fun builder header => builder.header crates header.1 header.2)
        (Builder.new.method event.requestType)).uri crates event.target).body event.getBody.toUTF8 := by
  rw [Requester.buildRequest, HttpRequest.target]
  split <;> rfl

/-- Whatever is built and sent is the request of the event. -/
theorem call_of_request {crates : Crates} {event : HttpRequest} {call : Call}
    (sent : Requester.request crates event = some call) :
    call = ⟨⟨⟨event.requestType.asRef, event.target, event.headers.entries⟩, event.getBody.toUTF8⟩,
      event.timeout⟩ := by
  rw [Requester.request, buildRequest_eq] at sent
  split at sent
  next request built =>
    cases sent
    obtain ⟨parts, addressed, rfl⟩ := Builder.parts_of_body built
    obtain ⟨parts, headed, rfl⟩ := Builder.parts_of_uri addressed
    obtain ⟨parts, new, rfl⟩ := Builder.parts_of_headers headed
    cases new
    rfl
  next => cases sent

/-! ## The command line -/

/-- The argument of `-H` for a header. -/
def headerArgument (header : String × String) : String := header.1 ++ ": " ++ header.2

/-- The command that repeats a request with this body. -/
def curlCommand (body : Option String) (parts : RequestParts) : List String :=
  ["curl", "-X", parts.method] ++ body.toList.flatMap (fun body => ["--data", body]) ++
    parts.headers.flatMap (fun header => ["-H", headerArgument header]) ++ [parts.uri]

/-- The text of the line for the headers, before the rest of it. -/
def headersText (headers : List (String × String)) (rest : List Char) : List Char :=
  headers.foldr (fun header text =>
    "-H".toList ++ ' ' :: '"' :: ((headerArgument header).toList ++ '"' :: ' ' :: text)) rest

def dataText (body : Option String) (rest : List Char) : List Char :=
  body.elim rest fun body =>
    "--data".toList ++ ' ' :: '"' :: (ShellWords.escapeQuotes body.toList ++ '"' :: ' ' :: rest)

theorem headersText_cons (header : String × String) (headers : List (String × String)) (rest : List Char) :
    headersText (header :: headers) rest = "-H".toList ++ ' ' :: '"' ::
      ((headerArgument header).toList ++ '"' :: ' ' :: headersText headers rest) := rfl

theorem toList_headers (headers : List (String × String)) (line : String) (rest : List Char) :
    (headers.foldl (fun line header => line ++ "-H \"" ++ header.1 ++ ": " ++ header.2 ++ "\" ") line).toList ++
        rest =
      line.toList ++ headersText headers rest := by
  induction headers generalizing line with
  | nil => rfl
  | cons header headers inductionHypothesis =>
    rw [List.foldl_cons, inductionHypothesis, headersText_cons]
    simp [headerArgument, String.toList_append]

theorem toList_addressed (line : String) (event : HttpRequest) :
    (if event.params.isEmpty then line ++ event.uri
      else event.params.entries.foldl (fun line param => line ++ param.1 ++ "=" ++ param.2)
        (line ++ event.uri ++ "?")).toList = line.toList ++ event.target.toList := by
  rw [HttpRequest.target]
  split
  next => rw [String.toList_append]
  next =>
    rw [Requester.uriWithParams, toList_foldl, toList_foldl]
    simp [String.toList_append]

/-- The line is the command, word by word. -/
theorem toList_curl (event : HttpRequest) :
    event.curl.toList = "curl".toList ++ ' ' :: ("-X".toList ++ ' ' :: (event.requestType.asRef.toList ++
      ' ' :: dataText event.body (headersText event.headers.entries event.target.toList))) := by
  rw [HttpRequest.curl]
  simp only [toList_addressed, toList_headers]
  cases event.body with
  | none => simp [dataText, String.toList_append]
  | some body =>
    simp [dataText, XorcNotifications.escapeQuotes, ShellWords.escapeQuotes, String.toList_append]

/-! ## Reading the line -/

/-- The words of the headers and of the URI after them. -/
def headerWords (headers : List (String × String)) (uri : String) : List (List Char) :=
  headers.foldr (fun header words => "-H".toList :: (headerArgument header).toList :: words) [uri.toList]

/-- A text that can stand between double quotes as it is. -/
def PlainArgument (text : String) : Prop := '"' ∉ text.toList ∧ Quotable text.toList

instance (text : String) : Decidable (PlainArgument text) :=
  decidable_of_iff ('"' ∉ text.toList ∧ Quotable text.toList) Iff.rfl

theorem plainWord_flag {flag : String} (same : flag = "curl" ∨ flag = "-X" ∨ flag = "--data" ∨ flag = "-H") :
    PlainWord flag.toList := by
  rcases same with rfl | rfl | rfl | rfl <;> decide

theorem plainWord_verb (verb : HttpVerb) : PlainWord verb.asRef.toList := by
  cases verb <;> decide

theorem fills_headers (headers : List (String × String)) (uri : String) :
    Fills (headerWords headers uri) (headersText headers uri.toList) := by
  induction headers with
  | nil => exact fills_last uri.toList
  | cons header headers inductionHypothesis =>
    rw [headersText_cons]
    exact inductionHypothesis.argument "-H".toList (headerArgument header).toList

theorem words_headers_iff (headers : List (String × String)) (uri : String) :
    words (headersText headers uri.toList) = some (headerWords headers uri) ↔
      (∀ header ∈ headers, PlainArgument (headerArgument header)) ∧ PlainWord uri.toList := by
  induction headers with
  | nil =>
    rw [headersText, headerWords, List.foldr_nil, List.foldr_nil, words_last_iff]
    simp
  | cons header headers inductionHypothesis =>
    have fills := fills_headers headers uri
    have flag := plainWord_flag (.inr (.inr (.inr rfl)))
    rw [headersText_cons, List.forall_mem_cons, and_assoc, ← inductionHypothesis, PlainArgument, and_assoc]
    exact words_argument_iff flag fills (headerArgument header).toList

theorem words_data_iff (body : Option String) (headers : List (String × String)) (uri : String) :
    words (dataText body (headersText headers uri.toList)) =
        some (body.elim (headerWords headers uri) fun body =>
          "--data".toList :: body.toList :: headerWords headers uri) ↔
      (∀ text, body = some text → Quotable text.toList) ∧
        words (headersText headers uri.toList) = some (headerWords headers uri) := by
  cases body with
  | none => simp [dataText]
  | some text =>
    have flag := plainWord_flag (.inr (.inr (.inl rfl)))
    simp only [Option.some.injEq, forall_eq']
    exact words_escaped_argument_iff flag (fills_headers headers uri) text.toList

/-! ## What the record has to be -/

/-- The record has the correlation id of the request and the command that repeats it. -/
structure RecordsRequest (event : HttpRequest) (request : Request) (record : LogRecord) : Prop where
  correlationId : record.pairs.lookup "correlation_id" = some (.str event.getHeader.getCorrelationId)
  curl : ∃ line, record.pairs.lookup "curl" = some (.str line) ∧
    words line.toList = some ((curlCommand event.body request.parts).map String.toList)

/-- The one record that `respond` logs is one of the request that was sent. -/
def LoggedAsSent (topic : String) (key : Option Bytes) (event : HttpRequest) (request : Request)
    (result : Except RequestError HttpResult) (w : World) : Prop :=
  ∃ record, (HttpResponseProducer.respond topic key event result w).logs = w.logs ++ [record] ∧
    RecordsRequest event request record

/-- The request has no correlation id, its body and its headers can be quoted as the line
    quotes them, and its URI needs no quotes. -/
structure Repeatable (event : HttpRequest) : Prop where
  uncorrelated : event.getHeader.getCorrelationId = ""
  body : ∀ body, event.body = some body → Quotable body.toList
  headers : ∀ header ∈ event.headers.entries, PlainArgument (headerArgument header)
  uri : PlainWord event.target.toList

instance (event : HttpRequest) : Decidable (Repeatable event) :=
  decidable_of_iff
    (event.getHeader.getCorrelationId = "" ∧
      (event.body.toList.all fun body => decide (Quotable body.toList)) = true ∧
      (event.headers.entries.all fun header => decide (PlainArgument (headerArgument header))) = true ∧
      PlainWord event.target.toList) <| by
    simp only [List.all_eq_true, decide_eq_true_eq, Option.mem_toList]
    exact ⟨fun holds => ⟨holds.1, holds.2.1, holds.2.2.1, holds.2.2.2⟩,
      fun holds => ⟨holds.uncorrelated, holds.body, holds.headers, holds.uri⟩⟩

/-! ## When the record is right -/

theorem map_headerWords (headers : List (String × String)) (uri : String) :
    (headers.flatMap (fun header => ["-H", headerArgument header]) ++ [uri]).map String.toList =
      headerWords headers uri := by
  induction headers with
  | nil => rfl
  | cons header headers inductionHypothesis =>
    rw [headerWords, List.foldr_cons, ← headerWords, ← inductionHypothesis]
    rfl

theorem map_curlCommand (body : Option String) (parts : RequestParts) :
    (curlCommand body parts).map String.toList =
      "curl".toList :: "-X".toList :: parts.method.toList ::
        body.elim (headerWords parts.headers parts.uri) fun body =>
          "--data".toList :: body.toList :: headerWords parts.headers parts.uri := by
  cases body <;> rw [← map_headerWords] <;> rfl

/-- The line repeats the request if and only if its quoting is right for every part of it. -/
theorem words_curl_iff (event : HttpRequest) :
    words event.curl.toList = some ((curlCommand event.body
        ⟨event.requestType.asRef, event.target, event.headers.entries⟩).map String.toList) ↔
      (∀ body, event.body = some body → Quotable body.toList) ∧
        (∀ header ∈ event.headers.entries, PlainArgument (headerArgument header)) ∧
          PlainWord event.target.toList := by
  rw [toList_curl, map_curlCommand, words_blank_iff (plainWord_flag (.inl rfl)),
    words_blank_iff (plainWord_flag (.inr (.inl rfl))), words_blank_iff (plainWord_verb event.requestType),
    words_data_iff, words_headers_iff]

/-- What `respond` logs: the event without its header, and the response. -/
def requestRecord (event : HttpRequest) (result : Except RequestError HttpResult) : LogRecord where
  level := (HttpResponseProducer.resultRecord result).1
  message := (HttpResponseProducer.resultRecord result).2
  pairs := event.takeHeader.2.serialize ++
    (HttpResponseProducer.toResponse event.takeHeader.1 result).serialize

section Logged

variable (event : HttpRequest) (result : Except RequestError HttpResult)

theorem respond_logs (topic : String) (key : Option Bytes) (w : World) :
    (HttpResponseProducer.respond topic key event result w).logs = w.logs ++ [requestRecord event result] := rfl

/-- The header that is left has no correlation id. -/
theorem requestRecord_correlationId :
    (requestRecord event result).pairs.lookup "correlation_id" = some (.str "") := rfl

/-- The command line is the same with and without the header. -/
theorem requestRecord_curl :
    (requestRecord event result).pairs.lookup "curl" = some (.str event.curl) := rfl

theorem loggedAsSent_iff_recordsRequest (topic : String) (key : Option Bytes) (request : Request) (w : World) :
    LoggedAsSent topic key event request result w ↔
      RecordsRequest event request (requestRecord event result) := by
  rw [LoggedAsSent, respond_logs]
  constructor
  · rintro ⟨record, logged, records⟩
    cases List.append_cancel_left logged
    exact records
  · intro records
    exact ⟨_, rfl, records⟩

theorem recordsRequest_iff (request : Request) :
    RecordsRequest event request (requestRecord event result) ↔
      event.getHeader.getCorrelationId = "" ∧
        words event.curl.toList = some ((curlCommand event.body request.parts).map String.toList) := by
  constructor
  · rintro ⟨correlationId, line, found, reads⟩
    rw [requestRecord_correlationId, Option.some.injEq, LogValue.str.injEq] at correlationId
    rw [requestRecord_curl] at found
    cases found
    exact ⟨correlationId.symm, reads⟩
  · rintro ⟨uncorrelated, reads⟩
    refine ⟨?_, event.curl, requestRecord_curl event result, reads⟩
    rw [requestRecord_correlationId, uncorrelated]

end Logged

/-- The record of a request that was sent is one of this request if and only if the request
    is repeatable. -/
theorem logged_as_sent_iff {crates : Crates} {event : HttpRequest} {call : Call}
    (sent : Requester.request crates event = some call) (topic : String) (key : Option Bytes)
    (result : Except RequestError HttpResult) (w : World) :
    LoggedAsSent topic key event call.request result w ↔ Repeatable event := by
  cases call_of_request sent
  rw [loggedAsSent_iff_recordsRequest, recordsRequest_iff, words_curl_iff]
  constructor
  · rintro ⟨uncorrelated, body, headers, uri⟩
    exact ⟨uncorrelated, body, headers, uri⟩
  · intro repeatable
    exact ⟨repeatable.uncorrelated, repeatable.body, repeatable.headers, repeatable.uri⟩

/-- A request with a parameter, a header and a body that has double quotes. -/
def quotesInBody : HttpRequest :=
  { sampleHttp with
    requestType := .post
    headers := ⟨[("accept", "text/plain; q=0.5")], by decide⟩
    params := ⟨[("page", "1")], by decide⟩
    body := some "[\"value\"]" }

/-- The same with a double quote that the body escapes. -/
def escapeInBody : HttpRequest := { quotesInBody with body := some "[\"\\\"\"]" }

def correlated : HttpRequest :=
  { sampleHttp with header := some { Rpc.Request.new with correlationId := some "42" } }

def sampleChecks : Crates := (sampleCrates (sampleProtobuf "http.HttpRequest" none none none)).http

theorem quotesInBody_logged : ∃ call, Requester.request sampleChecks quotesInBody = some call ∧
    LoggedAsSent "responses" none quotesInBody call.request (.error .timeout) World.init := by
  have accepted : (Requester.request sampleChecks quotesInBody).isSome := by decide
  obtain ⟨call, sent⟩ := Option.isSome_iff_exists.mp accepted
  have logged := logged_as_sent_iff sent "responses" none (.error .timeout) World.init
  exact ⟨call, sent, logged.mpr (by decide)⟩

/-- One is logged without its correlation id, the other with a line that is no command. -/
theorem logged_otherwise :
    (∃ call, Requester.request sampleChecks correlated = some call ∧
      ¬ LoggedAsSent "responses" none correlated call.request (.error .timeout) World.init) ∧
    (∃ call, Requester.request sampleChecks escapeInBody = some call ∧
      ¬ LoggedAsSent "responses" none escapeInBody call.request (.error .timeout) World.init) := by
  constructor
  · refine ⟨_, rfl, ?_⟩
    rw [loggedAsSent_iff_recordsRequest, recordsRequest_iff]
    intro records
    exact absurd records.1 (by decide)
  · refine ⟨_, rfl, ?_⟩
    rw [loggedAsSent_iff_recordsRequest, recordsRequest_iff]
    intro records
    exact absurd records.2 (by decide)

end HttpRequester

end XorcNotifications
