import VideoAdapter.Http.Request.Theorems

namespace VideoAdapter.Http

-- What ends a name or a value, and what stands for another byte.
def separators : List Char := ['&', '=', '?']

def escapes : List Char := ['%', '+']

-- A text for a value. Any byte may be written as `%` and two digits, and a space as `+`.
inductive Escaped : Str → Str → Prop where
  | nil : Escaped [] []
  | plain {value text : Str} {c : Char} (hseparator : c ∉ separators) (hescape : c ∉ escapes)
      (h : Escaped value text) : Escaped (c :: value) (c :: text)
  | space {value text : Str} (h : Escaped value text) : Escaped (' ' :: value) ('+' :: text)
  | percent {value text : Str} {first second : Char} (hfirst : ishex first = true)
      (hsecond : ishex second = true) (h : Escaped value text) :
      Escaped (Char.ofNat (hexValue first * 16 + hexValue second) :: value)
        ('%' :: first :: second :: text)

theorem unescapeParam_plain {c : Char} (hescape : c ∉ escapes) (rest : Str) :
    unescapeParam (c :: rest) = c :: unescapeParam rest := by
  have hpercent : c ≠ '%' := by rintro rfl; exact hescape (by decide)
  have hplus : c ≠ '+' := by rintro rfl; exact hescape (by decide)
  rw [unescapeParam]
  · rintro first second others rfl
    exact fun _ => hpercent rfl
  · exact hplus

theorem unescapeParam_escaped {value text : Str} (h : Escaped value text) :
    unescapeParam text = value := by
  induction h with
  | nil => rfl
  | plain hseparator hescape h ih => rw [unescapeParam_plain hescape, ih]
  | space h ih => rw [unescapeParam, ih]
  | percent hfirst hsecond h ih =>
      rw [unescapeParam, if_pos (by rw [hfirst, hsecond]; rfl), ih]

theorem ishex_not_separator {c : Char} (h : ishex c = true) : c ∉ separators := by
  intro hmem
  simp only [separators, List.mem_cons, List.not_mem_nil, or_false] at hmem
  rcases hmem with rfl | rfl | rfl <;> exact absurd h (by decide)

theorem Escaped.text_not_separator {value text : Str} (h : Escaped value text) :
    ∀ c ∈ text, c ∉ separators := by
  induction h with
  | nil => simp
  | plain hseparator hescape h ih => simpa using ⟨hseparator, ih⟩
  | space h ih => simpa using ⟨by decide, ih⟩
  | percent hfirst hsecond h ih =>
      simpa using ⟨by decide, ishex_not_separator hfirst, ishex_not_separator hsecond, ih⟩

-- A name, which is sent as it is, and a value with the text that is sent for it.
structure Field where
  key : Str
  value : Str
  text : Str
  plain : ∀ c ∈ key, c ∉ separators
  escaped : Escaped value text

namespace Field

def entry (field : Field) : Str × Str := (field.key, field.text)

def write (field : Field) : Str := field.key ++ '=' :: field.text

theorem notMem_write {c : Char} (hc : c ∈ separators) (hne : c ≠ '=') (field : Field) :
    c ∉ field.write := by
  intro hmem
  rcases List.mem_append.mp hmem with hkey | hrest
  · exact field.plain c hkey hc
  · rcases List.mem_cons.mp hrest with heq | htext
    · exact hne heq
    · exact field.escaped.text_not_separator c htext hc

theorem keyValues_write (field : Field) : keyValues (field.write.splitOn '=') = [field.entry] := by
  have hkey : '=' ∉ field.key := fun hmem => field.plain _ hmem (by decide)
  have htext : '=' ∉ field.text := fun hmem => field.escaped.text_not_separator _ hmem (by decide)
  rw [write, List.splitOn_append_cons_self_of_not_mem hkey, List.splitOn_eq_singleton htext]
  rfl

-- What stands behind the question mark, or in the body.
def query (fields : List Field) : Str := ['&'].intercalate (fields.map write)

theorem notMem_query {c : Char} (hc : c ∈ separators) (hne : c ≠ '=') (hand : c ≠ '&')
    (fields : List Field) : c ∉ query fields := by
  induction fields with
  | nil => simp [query]
  | cons field rest ih =>
      cases rest with
      | nil => simpa [query] using notMem_write hc hne field
      | cons next others =>
          rw [query, List.map_cons, List.map_cons, List.intercalate_cons_cons]
          simp only [List.mem_append, List.mem_singleton, not_or]
          exact ⟨⟨notMem_write hc hne field, hand⟩, ih⟩

theorem query_eq_nil {fields : List Field} (h : query fields = []) : fields = [] := by
  cases fields with
  | nil => rfl
  | cons field rest =>
      cases rest with
      | nil => simp [query, write] at h
      | cons next others =>
          rw [query, List.map_cons, List.map_cons, List.intercalate_cons_cons] at h
          simp at h

theorem parseQueryUrl_query {fields : List Field} (hne : fields ≠ []) (params : List (Str × Str)) :
    parseQueryUrl params (query fields) = params ++ fields.map entry := by
  have hwrite : ∀ text ∈ fields.map write, '&' ∉ text := by
    intro text htext
    obtain ⟨field, -, rfl⟩ := List.mem_map.mp htext
    exact notMem_write (by decide) (by decide) field
  rw [parseQueryUrl, query, List.splitOn_intercalate '&' hwrite (by simpa using hne)]
  congr 1
  rw [List.flatMap_map]
  simp only [keyValues_write]
  exact List.map_eq_flatMap.symm

-- The value of the first field of a name.
def lookup (fields : List Field) (key : Str) : Str :=
  ((fields.find? fun field => field.key = key).map value).getD []

theorem unescape_getParam (fields : List Field) (key : Str) :
    unescapeParam (getParam (fields.map entry) key) = lookup fields key := by
  rw [getParam, List.find?_map, lookup]
  change unescapeParam ((((fields.find? fun field => field.key = key).map entry).map Prod.snd).getD [])
    = _
  cases fields.find? fun field => field.key = key with
  | none => rfl
  | some field => exact unescapeParam_escaped field.escaped

-- A query without fields is read as one field without a name and a value.
theorem unescape_getParam_query (fields : List Field) (key : Str) :
    unescapeParam (getParam (parseQueryUrl [] (query fields)) key) = lookup fields key := by
  by_cases hne : fields = []
  · subst hne
    have hparse : parseQueryUrl [] (query []) = [([], [])] := by decide
    rw [hparse]
    by_cases hkey : key = []
    · subst hkey
      rfl
    · have hnone : getParam [(([] : Str), ([] : Str))] key = [] := by simp [getParam, Ne.symm hkey]
      rw [hnone]
      rfl
  · rw [parseQueryUrl_query hne, List.nil_append, unescape_getParam]

-- `get_params` has the values of all fields of the name, in the order in which they were written.
theorem unescape_getParams_query {fields : List Field} (hne : fields ≠ []) (key : Str) :
    (getParams (parseQueryUrl [] (query fields)) key).map unescapeParam =
      (fields.filter fun field => field.key = key).map value := by
  rw [parseQueryUrl_query hne, List.nil_append]
  clear hne
  induction fields with
  | nil => rfl
  | cons field rest ih =>
      have hentry : unescapeParam field.entry.2 = field.value := unescapeParam_escaped field.escaped
      simp only [getParams] at ih
      by_cases hkey : field.key = key
      · have hfirst : field.entry.1 = key := hkey
        simp only [getParams, List.map_cons, List.filter_cons, hfirst, hkey, decide_true, if_true,
          hentry, ih]
      · have hfirst : field.entry.1 ≠ key := hkey
        simp only [getParams, List.map_cons, List.filter_cons, hfirst, hkey, decide_false,
          Bool.false_eq_true, if_false, ih]

end Field

namespace Message

-- Where a message carries its fields: in the URL if it is a GET request, in the body if it is a POST
-- request with the content type of a form.
inductive Carries (m : Message) (fields : List Field) : Prop where
  | inUrl (uri : Str) (hmethod : m.line.method = 1) (huri : '?' ∉ uri)
      (hurl : m.url = uri ++ '?' :: Field.query fields)
  | inBody (hmethod : m.line.method = 3)
      (htype : m.header "Content-Type".toList = "application/x-www-form-urlencoded".toList)
      (hbody : m.body = Field.query fields)

theorem queryParams_query {uri : Str} (huri : '?' ∉ uri) (fields : List Field) :
    queryParams (uri ++ '?' :: Field.query fields) = parseQueryUrl [] (Field.query fields) := by
  have hquery : '?' ∉ Field.query fields := Field.notMem_query (by decide) (by decide) (by decide) _
  rw [queryParams, List.splitOn_append_cons_self_of_not_mem huri, List.splitOn_eq_singleton hquery]

theorem reqParams_requestBody {m : Message}
    (hmulti : ¬ (Lib.findWord "multipart/form-data".toList (m.header "Content-Type".toList)).isSome) :
    m.requestBody.reqParams =
      if m.header "Content-Type".toList = "application/x-www-form-urlencoded".toList ∧ m.body ≠ [] then
        parseQueryUrl [] m.body
      else [] := by
  unfold requestBody
  dsimp only
  rw [if_neg hmulti]
  split <;> rfl

theorem method_request {m : Message} (hheaders : m.headers ≠ []) (size : Int) :
    (m.request size).line.method = m.line.methodName := by
  change m.requestLine.method = _
  rw [requestLine, if_neg hheaders]

theorem getParam_get {m : Message} (hheaders : m.headers ≠ []) (hmethod : m.line.method = 1)
    (size : Int) (key : Str) :
    (m.request size).getParam key = getParam (queryParams m.url) key := by
  have hget : (m.request size).line.method = "GET".toList := by
    rw [method_request hheaders, ParserLine.methodName, if_pos hmethod]
  have hparams : (m.request size).line.param = queryParams m.url := by
    change m.requestLine.param = _
    rw [requestLine, if_neg hheaders]
  rw [Request.getParam, if_pos hget, hparams]

-- The URL of a POST request is not looked at.
theorem getParam_post {m : Message} (hheaders : m.headers ≠ []) (hmethod : m.line.method = 3)
    (size : Int) (key : Str) :
    (m.request size).getParam key = getParam m.requestBody.reqParams key := by
  have hpost : (m.request size).line.method = "POST".toList := by
    rw [method_request hheaders, ParserLine.methodName, if_neg (by omega), if_pos hmethod]
  rw [Request.getParam, if_neg (by rw [hpost]; decide), if_pos hpost]
  rfl

def spaced : Field where
  key := "x".toList
  value := "a b".toList
  text := "a%20b".toList
  plain := forall_mem_of_all (by decide)
  escaped := .plain (by decide) (by decide)
    (@Escaped.percent _ _ '2' '0' rfl rfl (.plain (by decide) (by decide) .nil))

end Message

end VideoAdapter.Http
