import XorcNotifications.Services

/-!
# Maps as HTTP text

The requester writes a map of parameters into a URI, and the producer reads a map of
headers out of an answer.  Both are folds that are right for one item and not for more:
nothing stands between two parameters, and a second value of a header comes without the
name it is filed under.
-/

namespace XorcNotifications.HttpRequester

open TextSearch KeyedTables

/-! ## Query parameters -/

/-- The characters that have no meaning of their own in a query. -/
def unreserved (c : Char) : Bool := c.isAlphanum || c = '-' || c = '.' || c = '_' || c = '~'

def PlainParams (params : StringMap) : Prop :=
  ∀ param ∈ params.entries, ∀ c ∈ param.1.toList ++ param.2.toList, unreserved c = true

instance (params : StringMap) : Decidable (PlainParams params) :=
  decidable_of_iff
    (params.entries.all fun param => (param.1.toList ++ param.2.toList).all unreserved) <| by
      simp only [PlainParams, List.all_eq_true]

/-- Read the pairs of a query: between the `&`, each cut at its first `=`. -/
def decodeQuery (query : List Char) : List (String × String) :=
  (query.splitOn '&').map fun piece =>
    (String.ofList (cut '=' piece).1, String.ofList (cut '=' piece).2)

def decodeUri (uri : String) : String × List (String × String) :=
  (String.ofList (cut '?' uri.toList).1, decodeQuery (cut '?' uri.toList).2)

/-- The URI gives back what it was made of, and no other parameters make the same URI. -/
def SurvivesEncoding (uri : String) (params : StringMap) : Prop :=
  (decodeUri (Requester.uriWithParams uri params)).1 = uri ∧
  (decodeUri (Requester.uriWithParams uri params)).2.Perm params.entries ∧
  ∀ other, PlainParams other →
    Requester.uriWithParams uri other = Requester.uriWithParams uri params →
      other.entries.Perm params.entries

/-- What the fold appends to the URI. -/
def queryText (entries : List (String × String)) : List Char :=
  entries.flatMap fun param => param.1.toList ++ '=' :: param.2.toList

theorem toList_foldl (entries : List (String × String)) (acc : String) :
    (entries.foldl (fun acc param => acc ++ param.1 ++ "=" ++ param.2) acc).toList =
      acc.toList ++ queryText entries := by
  induction entries generalizing acc with
  | nil => simp [queryText]
  | cons param entries inductionHypothesis =>
    rw [List.foldl_cons, inductionHypothesis]
    simp [queryText, String.toList_append]

theorem cut_uriWithParams {uri : String} (base : '?' ∉ uri.toList) (params : StringMap) :
    cut '?' (Requester.uriWithParams uri params).toList = (uri.toList, queryText params.entries) := by
  rw [Requester.uriWithParams, toList_foldl, String.toList_append]
  have written : uri.toList ++ "?".toList ++ queryText params.entries =
      uri.toList ++ '?' :: queryText params.entries := by simp
  rw [written, cut_append_cons base]

theorem unreserved_ne {c separator : Char} (plain : unreserved c = true)
    (reserved : unreserved separator = false) : c ≠ separator := by
  intro same
  rw [same, reserved] at plain
  cases plain

section Plain

variable {params : StringMap} (plain : PlainParams params)
include plain

theorem and_not_mem_queryText : '&' ∉ queryText params.entries := by
  intro member
  obtain ⟨param, listed, inside⟩ := List.mem_flatMap.mp member
  rcases List.mem_append.mp inside with left | right
  · exact unreserved_ne (plain param listed '&' (List.mem_append_left _ left)) (by decide) rfl
  · rcases List.mem_cons.mp right with isEquals | right
    · exact absurd isEquals (by decide)
    · exact unreserved_ne (plain param listed '&' (List.mem_append_right _ right)) (by decide) rfl

/-- However many parameters there are, the query is one piece. -/
theorem decodeQuery_queryText :
    decodeQuery (queryText params.entries) =
      [(String.ofList (cut '=' (queryText params.entries)).1,
        String.ofList (cut '=' (queryText params.entries)).2)] := by
  rw [decodeQuery, List.splitOn_eq_singleton (and_not_mem_queryText plain), List.map_singleton]

theorem equals_not_mem {param : String × String} (listed : param ∈ params.entries) :
    '=' ∉ param.1.toList ∧ '=' ∉ param.2.toList := by
  constructor
  · intro member
    exact unreserved_ne (plain param listed '=' (List.mem_append_left _ member)) (by decide) rfl
  · intro member
    exact unreserved_ne (plain param listed '=' (List.mem_append_right _ member)) (by decide) rfl

theorem decodeQuery_single {param : String × String} (single : params.entries = [param]) :
    decodeQuery (queryText params.entries) = [param] := by
  have keyPlain := (equals_not_mem plain (single ▸ List.mem_cons_self)).1
  have text : queryText params.entries = param.1.toList ++ '=' :: param.2.toList := by
    rw [single, queryText, List.flatMap_singleton]
  rw [decodeQuery_queryText plain, text, cut_append_cons keyPlain]
  simp

/-- The number of parameters can still be told from the query. -/
theorem count_queryText : (queryText params.entries).count '=' = params.entries.length := by
  have single : ∀ param ∈ params.entries, '=' ∉ param.1.toList ∧ '=' ∉ param.2.toList :=
    fun param listed => equals_not_mem plain listed
  generalize params.entries = entries at single
  induction entries with
  | nil => rfl
  | cons param entries inductionHypothesis =>
    obtain ⟨keyPlain, valuePlain⟩ := single param List.mem_cons_self
    have rest := inductionHypothesis fun other listed => single other (List.mem_cons_of_mem _ listed)
    rw [queryText] at rest ⊢
    rw [List.flatMap_cons, List.count_append, List.count_append, List.count_cons_self,
      List.count_eq_zero.mpr keyPlain, List.count_eq_zero.mpr valuePlain, rest, List.length_cons]
    omega

theorem survivesEncoding_of_single {uri : String} (base : '?' ∉ uri.toList) {param : String × String}
    (single : params.entries = [param]) : SurvivesEncoding uri params := by
  rw [SurvivesEncoding, decodeUri, cut_uriWithParams base]
  refine ⟨String.ofList_toList, ?_, fun other otherPlain same => ?_⟩
  · rw [decodeQuery_single plain single, single]
  · -- The same URI has the same query, and its one `=` leaves room for one parameter only.
    have texts := congrArg (fun text => cut '?' (String.toList text)) same
    simp only [cut_uriWithParams base, Prod.mk.injEq, true_and] at texts
    have length : other.entries.length = 1 := by
      rw [← count_queryText otherPlain, texts, count_queryText plain, single, List.length_singleton]
    obtain ⟨otherParam, otherSingle⟩ := List.length_eq_one_iff.mp length
    have decoded := decodeQuery_single otherPlain otherSingle
    rw [texts, decodeQuery_single plain single] at decoded
    rw [otherSingle, single, decoded]

theorem single_of_survivesEncoding {uri : String} (base : '?' ∉ uri.toList)
    (survives : SurvivesEncoding uri params) : params.entries.length = 1 := by
  obtain ⟨-, decoded, -⟩ := survives
  rw [decodeUri, cut_uriWithParams base, decodeQuery_queryText plain] at decoded
  exact decoded.length_eq.symm

end Plain

/-- Parameters survive the URI exactly if there is one of them. -/
theorem params_survive_iff {uri : String} (base : '?' ∉ uri.toList) {params : StringMap}
    (plain : PlainParams params) : SurvivesEncoding uri params ↔ params.entries.length = 1 := by
  refine ⟨single_of_survivesEncoding plain base, fun length => ?_⟩
  obtain ⟨param, single⟩ := List.length_eq_one_iff.mp length
  exact survivesEncoding_of_single plain base single

def oneParam : StringMap := ⟨[("a", "b")], by decide⟩

def twoParams : StringMap := ⟨[("a", "b"), ("c", "d")], by decide⟩

theorem oneParam_survives : SurvivesEncoding "http://host/" oneParam :=
  (params_survive_iff (by decide) (by decide)).mpr rfl

/-- Two parameters do not come back, and another map makes the same URI. -/
theorem twoParams_lost :
    ¬ SurvivesEncoding "http://host/" twoParams ∧
      Requester.uriWithParams "http://host/" twoParams =
        Requester.uriWithParams "http://host/" ⟨[("a", ""), ("bc", "d")], by decide⟩ := by
  refine ⟨fun survives => ?_, by decide⟩
  have single := single_of_survivesEncoding (by decide) (by decide) survives
  cases single

/-! ## Response headers -/

def VisibleAscii (value : HeaderValue) : Prop := ∀ b ∈ value.toList, (32 ≤ b ∧ b < 127) ∨ b = 9

/-- A list of values as one text: joined by commas, with blanks after each of them or not. -/
inductive Joined : List (List Char) → List Char → Prop where
  | one (value : List Char) : Joined [value] value
  | more (value : List Char) {blanks : List Char} {values : List (List Char)} {joined : List Char}
      (blank : ∀ c ∈ blanks, c = ' ' ∨ c = '\t') (rest : Joined values joined) :
      Joined (value :: values) (value ++ ',' :: (blanks ++ joined))

/-- The headers of the answer are those received, each with all of its values. -/
structure HeadersKept (received : HeaderMap) (answer : Finmap fun _ : String => String) : Prop where
  names : ∀ name, name ∈ answer ↔ name ∈ received.groups.map Prod.fst
  values : ∀ group ∈ received.groups, ∃ entry, answer.lookup group.1 = some entry ∧
    Joined ((group.2.1 :: group.2.2).map asciiText) entry.toList

theorem toStr_of_visibleAscii {value : HeaderValue} (visible : VisibleAscii value) :
    value.toStr = some (String.ofList (asciiText value)) := by
  have accepted : (value.toList.all fun b => (32 ≤ b && b < 127) || b = 9) = true := by
    rw [List.all_eq_true]
    intro b member
    simpa using visible b member
  rw [HeaderValue.toStr, if_pos accepted]
  refine fromUTF8?_of_ascii fun b member => ?_
  rcases visible b member with ⟨-, small⟩ | rfl
  · exact UInt8.lt_trans small (by decide)
  · decide

/-- The values after the first one come without a name, and the fold passes over them. -/
theorem foldl_unnamed {A : Type} {step : A → Option String × HeaderValue → A}
    (passes : ∀ acc value, step acc (none, value) = acc) (values : List HeaderValue) (acc : A) :
    (values.map fun value => (none, value)).foldl step acc = acc := by
  induction values with
  | nil => rfl
  | cons value values inductionHypothesis =>
    rw [List.map_cons, List.foldl_cons, passes, inductionHypothesis]

theorem collectHeaders_eq_applyAll (headers : HeaderMap) :
    HttpResponseProducer.collectHeaders headers =
      Table.applyAll ∅ ((headers.groups.map fun group => (group.1, group.2.1.toStr.getD "")).map
        fun pair => .put pair.1 pair.2) := by
  rw [HttpResponseProducer.collectHeaders, HeaderMap.intoIter, List.foldl_flatMap, Table.applyAll,
    List.foldl_map, List.foldl_map]
  congr 1
  funext acc group
  rw [List.foldl_cons, foldl_unnamed fun acc value => rfl]
  rfl

/-- Every name is there, with its first value. -/
theorem lookup_collectHeaders (headers : HeaderMap) (name text : String) :
    (HttpResponseProducer.collectHeaders headers).lookup name = some text ↔
      ∃ group ∈ headers.groups, group.1 = name ∧ group.2.1.toStr.getD "" = text := by
  rw [collectHeaders_eq_applyAll, Table.lookup_applyAll_puts]
  · simp
  · rw [List.map_map]
    exact headers.nodup

theorem names_collectHeaders (headers : HeaderMap) (name : String) :
    name ∈ HttpResponseProducer.collectHeaders headers ↔ name ∈ headers.groups.map Prod.fst := by
  rw [Finmap.mem_iff, List.mem_map]
  simp only [lookup_collectHeaders]
  constructor
  · intro found
    obtain ⟨text, group, member, named, -⟩ := found
    exact ⟨group, member, named⟩
  · intro received
    obtain ⟨group, member, named⟩ := received
    exact ⟨_, group, member, named, rfl⟩

/-- A joined list of more than one value is longer than its first. -/
theorem Joined.length_lt {value other : List Char} {values : List (List Char)} {joined : List Char}
    (whole : Joined (value :: other :: values) joined) : value.length < joined.length := by
  cases whole with
  | more value blank rest =>
    rw [List.length_append, List.length_cons]
    omega

theorem headersKept_iff {received : HeaderMap}
    (visible : ∀ group ∈ received.groups, ∀ value ∈ group.2.1 :: group.2.2, VisibleAscii value) :
    HeadersKept received (HttpResponseProducer.collectHeaders received) ↔
      ∀ group ∈ received.groups, group.2.2 = [] := by
  have kept : ∀ group ∈ received.groups,
      (HttpResponseProducer.collectHeaders received).lookup group.1 =
        some (String.ofList (asciiText group.2.1)) := by
    intro group member
    refine (lookup_collectHeaders received _ _).mpr ⟨group, member, rfl, ?_⟩
    rw [toStr_of_visibleAscii (visible group member _ List.mem_cons_self), Option.getD_some]
  constructor
  · intro whole group member
    obtain ⟨entry, found, joined⟩ := whole.values group member
    rw [kept group member, Option.some.injEq] at found
    subst found
    rw [String.toList_ofList] at joined
    cases more : group.2.2 with
    | nil => rfl
    | cons other values =>
      rw [more] at joined
      exact absurd joined.length_lt (Nat.lt_irrefl _)
  · intro single
    refine ⟨names_collectHeaders received, fun group member => ?_⟩
    refine ⟨_, kept group member, ?_⟩
    rw [single group member, String.toList_ofList]
    exact .one _

def publishedHeaders (record : FutureRecord) : Option (Finmap fun _ : String => String) :=
  match record.payload with
  | .httpResponse response => response.payload.map (·.headers)
  | .pushResult _ => none

/-- The one record that `respond` publishes has the headers of the result. -/
def HeadersSurvive (topic : String) (key : Option Bytes) (event : HttpRequest) (result : HttpResult)
    (w : World) : Prop :=
  ∃ record answer,
    (HttpResponseProducer.respond topic key event (.ok result) w).published = w.published ++ [record] ∧
    publishedHeaders record = some answer ∧ HeadersKept result.headers answer

theorem headersSurvive_iff_kept (topic : String) (key : Option Bytes) (event : HttpRequest)
    (result : HttpResult) (w : World) :
    HeadersSurvive topic key event result w ↔
      HeadersKept result.headers (HttpResponseProducer.collectHeaders result.headers) := by
  constructor
  · intro survive
    obtain ⟨record, answer, added, headers, whole⟩ := survive
    have same := List.append_cancel_left added
    cases same
    cases headers
    exact whole
  · intro whole
    exact ⟨_, _, rfl, rfl, whole⟩

/-- No header is lost exactly if every name was received with one value. -/
theorem headers_survive_iff (topic : String) (key : Option Bytes) (event : HttpRequest)
    (result : HttpResult) (w : World)
    (visible : ∀ group ∈ result.headers.groups, ∀ value ∈ group.2.1 :: group.2.2, VisibleAscii value) :
    HeadersSurvive topic key event result w ↔
      ∀ group ∈ result.headers.groups, group.2.2 = [] := by
  rw [headersSurvive_iff_kept, headersKept_iff visible]

def oneValue : HttpResult where
  code := ⟨200⟩
  body := .empty
  headers := ⟨[("set-cookie", ⟨#[97]⟩, [])], by decide⟩

/-- One name with the values `a` and `b`. -/
def twoValues : HttpResult where
  code := ⟨200⟩
  body := .empty
  headers := ⟨[("set-cookie", ⟨#[97]⟩, [⟨#[98]⟩])], by decide⟩

theorem oneValue_survives : HeadersSurvive "responses" none sampleHttp oneValue World.init :=
  (headers_survive_iff "responses" none sampleHttp oneValue World.init
    (by simp [oneValue, VisibleAscii, toList_eq_data])).mpr (by simp [oneValue])

theorem twoValues_lost : ¬ HeadersSurvive "responses" none sampleHttp twoValues World.init := by
  have visible : ∀ group ∈ twoValues.headers.groups,
      ∀ value ∈ group.2.1 :: group.2.2, VisibleAscii value := by
    simp [twoValues, VisibleAscii, toList_eq_data]
  intro survive
  have whole := (headersSurvive_iff_kept _ _ _ _ _).mp survive
  have single := (headersKept_iff visible).mp whole _ List.mem_cons_self
  cases single

end XorcNotifications.HttpRequester
