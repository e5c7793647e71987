import Mathlib.Data.List.TakeWhile
import VideoAdapter.Http.Multipart.Scan

namespace VideoAdapter.Http

open MultipartParser

-- A field or a file of a form.
structure Part where
  name : Str
  filename : Option Str := none
  contentType : Option Str := none
  data : Str
deriving DecidableEq, Repr

namespace Part

-- What may stand between the quotes.
def Plain (s : Str) : Prop := CR ∉ s ∧ ';' ∉ s ∧ '=' ∉ s

instance (s : Str) : Decidable (Plain s) := inferInstanceAs (Decidable (CR ∉ s ∧ ';' ∉ s ∧ '=' ∉ s))

def parameter (key : String) (value : Str) : Str :=
  ' ' :: key.toList ++ '=' :: '\x22' :: value ++ ['\x22']

def disposition (part : Part) : Str :=
  "form-data".toList ++ ';' :: parameter "name" part.name ++
    part.filename.elim [] fun filename => ';' :: parameter "filename" filename

def header (name : String) (value : Str) : Str :=
  name.toList ++ [':', ' '] ++ (value ++ [CR, LF])

def headers (part : Part) : Str :=
  header "Content-Disposition" part.disposition ++
    part.contentType.elim [] (header "Content-Type")

-- What the parser makes of it.
def item (part : Part) : FileItem where
  isFile := part.filename.isSome
  parseState := true
  contentType := part.contentType.getD []
  name := part.name
  filename := part.filename.getD []
  data := part.data

structure Encodable (boundary : Str) (part : Part) : Prop where
  name_plain : Plain part.name
  filename_plain : ∀ filename, part.filename = some filename → Plain filename
  contentType_line : ∀ contentType, part.contentType = some contentType →
    CR ∉ contentType ∧ contentType.head? ≠ some ' '
  data_free : ¬ delimiter boundary <:+: part.data

end Part

-- The parts of a form behind its first boundary.
def encodeParts (boundary : Str) : List Part → Str
  | [] => []
  | part :: rest =>
      [CR, LF] ++ (part.headers ++ ([CR, LF] ++ (part.data ++ delimiter boundary))) ++
        encodeParts boundary rest

def encodeForm (boundary : Str) (parts : List Part) (epilogue : Str) : Str :=
  boundary ++ (encodeParts boundary parts ++ '-' :: '-' :: epilogue)

section Tokens

theorem ssSplitStr_singleton {s : Str} {c : Char} (hs : c ∉ s) (hne : s ≠ []) :
    ssSplitStr s c = [s] := by
  rw [ssSplitStr, List.splitOn_eq_singleton hs, List.getLast?_singleton, if_neg]
  simpa using hne

theorem ssSplitStr_cons {s : Str} {c : Char} (hs : c ∉ s) (t : Str) :
    ssSplitStr (s ++ c :: t) c = s :: ssSplitStr t c := by
  have hsplit := List.splitOn_append_cons_self_of_not_mem hs t
  obtain ⟨first, rest, htokens⟩ := List.exists_cons_of_ne_nil (List.splitOn_ne_nil c t)
  have hlast : (s :: first :: rest).getLast? = (first :: rest).getLast? := List.getLast?_cons_cons
  rw [ssSplitStr, ssSplitStr, hsplit, htokens, hlast]
  split <;> rfl

-- The value of a parameter between its quotes.
theorem ssParseDispositionValue_parameter {key : String} (hkey : '=' ∉ key.toList) {value : Str}
    (hvalue : '=' ∉ value) : ssParseDispositionValue (Part.parameter key value) = some value := by
  have hfirst : '=' ∉ ' ' :: key.toList := by
    rw [List.mem_cons, not_or]
    exact ⟨by decide, hkey⟩
  have hquoted : '=' ∉ '\x22' :: value ++ ['\x22'] := by
    simp only [List.cons_append, List.mem_cons, List.mem_append, List.not_mem_nil, or_false, not_or]
    exact ⟨by decide, hvalue, by decide⟩
  have htokens : ssSplitStr (Part.parameter key value) '=' =
      [' ' :: key.toList, '\x22' :: value ++ ['\x22']] := by
    have hcons := ssSplitStr_cons hfirst ('\x22' :: value ++ ['\x22'])
    rw [ssSplitStr_singleton hquoted (by simp)] at hcons
    simpa [Part.parameter] using hcons
  have hlength : ('\x22' :: value ++ ['\x22']).length - 2 = value.length := by simp
  rw [ssParseDispositionValue, htokens]
  simp only [List.drop_one, List.cons_append, List.tail_cons]
  split
  · next hquotes =>
      have hempty : value ++ ['\x22'] = ['\x22'] := by simpa using hquotes
      have hnil : value = [] := by simpa using congrArg List.length hempty
      rw [hnil]
  · next hquotes =>
      have hne : value ≠ [] := by
        rintro rfl
        exact hquotes rfl
      rw [← List.cons_append, hlength, List.take_left, if_neg hne]

theorem parameter_free {key : String} {value : Str} {c : Char} (hkey : c ∉ key.toList) (hvalue : c ∉ value)
    (hc : c ≠ ' ' ∧ c ≠ '=' ∧ c ≠ '\x22') : c ∉ Part.parameter key value := by
  simp only [Part.parameter, List.cons_append, List.append_assoc, List.mem_cons, List.mem_append,
    List.not_mem_nil, or_false, not_or]
  exact ⟨hc.1, hkey, hc.2.1, hc.2.2, hvalue, hc.2.2⟩

theorem parameter_ne_nil (key : String) (value : Str) : Part.parameter key value ≠ [] := by
  simp [Part.parameter]

theorem ssParseMultiDisposition_disposition {part : Part} (hname : Part.Plain part.name)
    (hfilename : ∀ filename, part.filename = some filename → Part.Plain filename) (item : FileItem) :
    ssParseMultiDisposition part.disposition item =
      ({ item with
        name := part.name
        isFile := item.isFile || part.filename.isSome
        filename := part.filename.getD item.filename }, 0) := by
  have hnameValue := @ssParseDispositionValue_parameter "name" (by decide) _ hname.2.2
  have hnameFree : ';' ∉ Part.parameter "name" part.name :=
    parameter_free (by decide) hname.2.1 (by decide)
  have hform : ';' ∉ "form-data".toList := by decide
  cases hfile : part.filename with
  | none =>
      have hdisposition : part.disposition =
          "form-data".toList ++ ';' :: Part.parameter "name" part.name := by
        unfold Part.disposition
        rw [hfile, Option.elim_none, List.append_nil]
      have hsplit := ssSplitStr_cons hform (Part.parameter "name" part.name)
      rw [ssSplitStr_singleton hnameFree (parameter_ne_nil _ _), ← hdisposition] at hsplit
      rw [ssParseMultiDisposition, hsplit]
      simp [hnameValue]
  | some filename =>
      obtain ⟨-, hsemicolon, hequals⟩ := hfilename filename hfile
      have hfileValue := @ssParseDispositionValue_parameter "filename" (by decide) _ hequals
      have hfileFree : ';' ∉ Part.parameter "filename" filename :=
        parameter_free (by decide) hsemicolon (by decide)
      have hdisposition : part.disposition = "form-data".toList ++
          ';' :: (Part.parameter "name" part.name ++ ';' :: Part.parameter "filename" filename) := by
        unfold Part.disposition
        rw [hfile, Option.elim_some, List.append_assoc, List.cons_append]
      have hsplit := ssSplitStr_cons hform
        (Part.parameter "name" part.name ++ ';' :: Part.parameter "filename" filename)
      rw [ssSplitStr_cons hnameFree, ssSplitStr_singleton hfileFree (parameter_ne_nil _ _),
        ← hdisposition] at hsplit
      rw [ssParseMultiDisposition, hsplit]
      simp [hnameValue, hfileValue]

end Tokens

section Body

variable {body : RequestBody} {items : List FileItem} {item : FileItem}

-- The body of a request in the middle of its form, with the item that is being read.
def RequestBody.reading (body : RequestBody) (items : List FileItem) (item : FileItem) : RequestBody :=
  { body with fileItems := items ++ [item] }

theorem withLast_reading (f : FileItem → FileItem × Int) (empty : Int) :
    (body.reading items item).withLast f empty = (body.reading items (f item).1, (f item).2) := by
  simp [RequestBody.withLast, RequestBody.reading]

theorem on_disposition :
    RequestBody.onMultipart { body with fileItems := items } (.headerField "Content-Disposition".toList) =
      (body.reading items {}, 0) := rfl

theorem on_dispositionValue {part : Part} (hname : Part.Plain part.name)
    (hfilename : ∀ filename, part.filename = some filename → Part.Plain filename) :
    RequestBody.onMultipart (body.reading items {}) (.headerValue part.disposition) =
      (body.reading items { part.item with parseState := false, contentType := [], data := [] }, 0) := by
  have hvalue := ssParseMultiDisposition_disposition hname hfilename {}
  rw [RequestBody.onMultipart, RequestBody.onMultipartValue, withLast_reading]
  simp only [Bool.false_eq_true, if_false, hvalue, Part.item, Bool.false_or]

theorem on_contentType :
    RequestBody.onMultipart (body.reading items item) (.headerField "Content-Type".toList) =
      (body.reading items { item with parseState := true }, 0) := by
  have hne : "Content-Type".toList ≠ "Content-Disposition".toList := by decide
  rw [RequestBody.onMultipart, RequestBody.onMultipartName, if_neg hne, if_pos rfl, withLast_reading]

theorem on_contentTypeValue (hstate : item.parseState = true) (s : Str) :
    RequestBody.onMultipart (body.reading items item) (.headerValue s) =
      (body.reading items { item with contentType := s }, 0) := by
  rw [RequestBody.onMultipart, RequestBody.onMultipartValue, withLast_reading]
  simp only [hstate, if_true]

theorem on_partData (s t : Str) :
    RequestBody.onMultipart (body.reading items { item with data := s }) (.partData t) =
      (body.reading items { item with data := s ++ t }, 0) := by
  rw [RequestBody.onMultipart, RequestBody.onMultipartData]
  by_cases ht : t = []
  · rw [if_pos ht, ht, List.append_nil]
  · rw [if_neg ht, withLast_reading]

theorem on_partDataEnd :
    RequestBody.onMultipart (body.reading items item) .partDataEnd =
      (body.reading items { item with parseState := true }, 0) := by
  rw [RequestBody.onMultipart, RequestBody.onMultipartDataOver, withLast_reading]

end Body

section Form

variable {b : Str} {part : Part}

theorem disposition_line (hpart : part.Encodable b) :
    CR ∉ part.disposition ∧ part.disposition.head? ≠ some ' ' := by
  have hform : CR ∉ "form-data".toList := by decide
  have hname : CR ∉ Part.parameter "name" part.name :=
    parameter_free (by decide) hpart.name_plain.1 (by decide)
  have hfile : CR ∉ part.filename.elim [] fun filename => ';' :: Part.parameter "filename" filename := by
    cases hfilename : part.filename with
    | none => exact List.not_mem_nil
    | some filename =>
        rw [Option.elim_some, List.mem_cons, not_or]
        have hplain := hpart.filename_plain filename hfilename
        exact ⟨by decide, parameter_free (by decide) hplain.1 (by decide)⟩
  unfold Part.disposition
  refine ⟨?_, ?_⟩
  · rw [List.mem_append, List.mem_append, List.mem_cons, not_or, not_or, not_or]
    exact ⟨⟨hform, by decide, hname⟩, hfile⟩
  · rw [List.append_assoc, List.head?_append_of_ne_nil _ (by decide)]
    decide

variable (body : RequestBody) (items : List FileItem)

theorem reads_disposition (hpart : part.Encodable b) (index : Nat) (marked lookbehind : Str) :
    Reads RequestBody.onMultipart
      ⟨⟨b, index, .sHeaderFieldStart, lookbehind⟩, { body with fileItems := items }, marked⟩
      (Part.header "Content-Disposition" part.disposition)
      ⟨⟨b, index, .sHeaderFieldStart, lookbehind⟩, body.reading items
        { part.item with parseState := false, contentType := [], data := [] }, part.disposition⟩ := by
  obtain ⟨hcr, hblank⟩ := disposition_line hpart
  exact reads_header (forall_mem_of_all (by decide)) hcr hblank on_disposition
    (on_dispositionValue hpart.name_plain hpart.filename_plain)

-- The headers of a part, from the boundary in front of it.
theorem reads_headers (hpart : part.Encodable b) (index : Nat) (marked lookbehind : Str) :
    ∃ marked', Reads RequestBody.onMultipart
      ⟨⟨b, index, .sHeaderFieldStart, lookbehind⟩, { body with fileItems := items }, marked⟩ part.headers
      ⟨⟨b, index, .sHeaderFieldStart, lookbehind⟩, body.reading items
        { part.item with parseState := part.contentType.isSome, data := [] }, marked'⟩ := by
  have hfirst := reads_disposition body items hpart index marked lookbehind
  unfold Part.headers
  cases htype : part.contentType with
  | none =>
      have hitem : { part.item with parseState := false, contentType := [], data := [] } =
          { part.item with parseState := false, data := [] } := by
        rw [Part.item, htype, Option.getD_none]
      rw [hitem] at hfirst
      rw [Option.elim_none, List.append_nil, Option.isSome_none]
      exact ⟨_, hfirst⟩
  | some contentType =>
      obtain ⟨hline, hstart⟩ := hpart.contentType_line contentType htype
      have hitem : { part.item with parseState := true, contentType := contentType, data := [] } =
          { part.item with parseState := true, data := [] } := by
        rw [Part.item, htype, Option.getD_some]
      have hsecond : Reads RequestBody.onMultipart
          ⟨⟨b, index, .sHeaderFieldStart, lookbehind⟩, body.reading items
            { part.item with parseState := false, contentType := [], data := [] }, part.disposition⟩
          (Part.header "Content-Type" contentType)
          ⟨⟨b, index, .sHeaderFieldStart, lookbehind⟩, body.reading items
            { part.item with parseState := true, contentType := contentType, data := [] }, contentType⟩ :=
        reads_header (forall_mem_of_all (by decide)) hline hstart on_contentType
          (on_contentTypeValue rfl contentType)
      rw [hitem] at hsecond
      rw [Option.elim_some, Option.isSome_some]
      exact ⟨_, hfirst.trans hsecond⟩

-- A part, up to the boundary behind it.
theorem reads_part (hcr : CR ∉ b) (hb : b ≠ []) (hpart : part.Encodable b) (index : Nat)
    (marked lookbehind : Str) :
    Reads RequestBody.onMultipart
      ⟨⟨b, index, .sHeaderFieldStart, lookbehind⟩, { body with fileItems := items }, marked⟩
      (part.headers ++ ([CR, LF] ++ (part.data ++ delimiter b)))
      ⟨⟨b, b.length, .sPartDataAlmostEnd, delimiter b⟩,
        { body with fileItems := items ++ [part.item] }, []⟩ := by
  obtain ⟨marked', hheaders⟩ := reads_headers body items hpart index marked lookbehind
  have hdata := reads_data (b := b)
    (d := fun s => body.reading items { part.item with
      parseState := part.contentType.isSome, data := s })
    (e := fun s => body.reading items { part.item with data := s })
    (fun s t => @on_partData body items { part.item with parseState := part.contentType.isSome } s t) rfl
    (fun s => on_partDataEnd) hcr hb hpart.data_free [] lookbehind index
  exact hheaders.trans (reads_blank.trans hdata)

theorem reads_parts (hcr : CR ∉ b) (hb : b ≠ []) {parts : List Part}
    (hparts : ∀ part ∈ parts, part.Encodable b) :
    Reads RequestBody.onMultipart
      ⟨⟨b, b.length, .sPartDataAlmostEnd, delimiter b⟩, { body with fileItems := items }, []⟩
      (encodeParts b parts)
      ⟨⟨b, b.length, .sPartDataAlmostEnd, delimiter b⟩,
        { body with fileItems := items ++ parts.map Part.item }, []⟩ := by
  induction parts generalizing items with
  | nil =>
      rw [List.map_nil, List.append_nil]
      exact .refl _
  | cons part rest ih =>
      have hpart := reads_part body items hcr hb (hparts part List.mem_cons_self) b.length []
        (delimiter b)
      have hrest := ih (items ++ [part.item]) fun other hmem =>
        hparts other (List.mem_cons_of_mem _ hmem)
      rw [List.append_assoc, List.singleton_append] at hrest
      exact ((reads_boundaryEnd rfl).trans hpart).trans hrest

-- The first byte is read as one of the boundary.
theorem reads_fromStart {data : RequestBody} {text : Str} {next : Cursor RequestBody} (hb : b ≠ [])
    (h : Reads RequestBody.onMultipart ⟨⟨b, 0, .sStartBoundary, []⟩, data, []⟩ (b ++ text) next) :
    Reads RequestBody.onMultipart ⟨⟨b, 0, .sStart, []⟩, data, []⟩ (b ++ text) next := by
  obtain ⟨c, rest, rfl⟩ := List.exists_cons_of_ne_nil hb
  rw [List.cons_append] at h ⊢
  exact h.of_step rfl

theorem reads_firstParts (hcr : CR ∉ b) (hb : b ≠ []) {parts : List Part} (hne : parts ≠ [])
    (hparts : ∀ part ∈ parts, part.Encodable b) :
    Reads RequestBody.onMultipart ⟨⟨b, 0, .sStart, []⟩, body, []⟩ (b ++ encodeParts b parts)
      ⟨⟨b, b.length, .sPartDataAlmostEnd, delimiter b⟩,
        { body with fileItems := body.fileItems ++ parts.map Part.item }, []⟩ := by
  obtain ⟨part, rest, rfl⟩ := List.exists_cons_of_ne_nil hne
  have hpart := reads_part body body.fileItems hcr hb (hparts part List.mem_cons_self) 0 [] []
  have hrest := reads_parts body (body.fileItems ++ [part.item]) hcr hb fun other hmem =>
    hparts other (List.mem_cons_of_mem _ hmem)
  rw [List.append_assoc, List.singleton_append] at hrest
  have hform : Reads RequestBody.onMultipart ⟨⟨b, 0, .sStartBoundary, []⟩, body, []⟩
      (b ++ encodeParts b (part :: rest)) ⟨⟨b, b.length, .sPartDataAlmostEnd, delimiter b⟩,
        { body with fileItems := body.fileItems ++ (part :: rest).map Part.item }, []⟩ :=
    reads_start.trans ((reads_firstEnd rfl).trans hpart |>.trans hrest)
  exact reads_fromStart hb hform

-- What the parser makes of a form: its parts in order, and their values as parameters.
theorem execute_encodeForm (hcr : CR ∉ b) (hb : b ≠ []) {parts : List Part} (hne : parts ≠ [])
    (hparts : ∀ part ∈ parts, part.Encodable b) (epilogue : Str) :
    execute RequestBody.onMultipart { parser := { multipartBoundary := b }, data := body }
        (encodeForm b parts epilogue) 0 =
      (RequestBody.parseMultiParams { body with fileItems := body.fileItems ++ parts.map Part.item },
        (encodeForm b parts epilogue).length) := by
  have hreads := reads_firstParts body hcr hb hne hparts
  rw [encodeForm, ← List.append_assoc, hreads _ _ (by simp), execute_last rfl, Nat.zero_add,
    ← List.length_append]

-- The same for the parts before one that is still to be read.
theorem reads_upTo (hcr : CR ∉ b) (hb : b ≠ []) {parts : List Part}
    (hparts : ∀ part ∈ parts, part.Encodable b) :
    ∃ index lookbehind marked,
      Reads RequestBody.onMultipart ⟨⟨b, 0, .sStart, []⟩, body, []⟩
        (b ++ encodeParts b parts ++ [CR, LF])
        ⟨⟨b, index, .sHeaderFieldStart, lookbehind⟩,
          { body with fileItems := body.fileItems ++ parts.map Part.item }, marked⟩ := by
  by_cases hne : parts = []
  · subst hne
    refine ⟨0, [], [], ?_⟩
    have hform : Reads RequestBody.onMultipart ⟨⟨b, 0, .sStartBoundary, []⟩, body, []⟩ (b ++ [CR, LF])
        ⟨⟨b, 0, .sHeaderFieldStart, []⟩, body, []⟩ := reads_start.trans (reads_firstEnd rfl)
    rw [encodeParts, List.append_nil, List.map_nil, List.append_nil]
    exact reads_fromStart hb hform
  · exact ⟨_, _, _, (reads_firstParts body hcr hb hne hparts).trans (reads_boundaryEnd rfl)⟩

-- A value that the function for it does not take ends the parsing.
theorem execute_badValue {value : Str} (hvalue : CR ∉ value) (hne : value ≠ [])
    (hblank : value.head? ≠ some ' ') {index : Nat} {lookbehind marked : Str} {failed : RequestBody} {ret : Int}
    (hret : ret ≠ 0) (hon : RequestBody.onMultipart body (.headerValue value) = (failed, ret))
    (rest : Str) (i : Nat) :
    execute RequestBody.onMultipart ⟨⟨b, index, .sHeaderValueStart, lookbehind⟩, body, marked⟩
      (value ++ CR :: rest) i = (failed, i + value.length) := by
  have hbytes : Reads RequestBody.onMultipart
      ⟨⟨b, index, .sHeaderValueStart, lookbehind⟩, body, marked⟩ value
      ⟨⟨b, index, .sHeaderValue, lookbehind⟩, body, value⟩ := by
    have hread := @reads_valueBytes _ RequestBody.onMultipart b body [] lookbehind index value hvalue
    obtain ⟨c, others, rfl⟩ := List.exists_cons_of_ne_nil hne
    have hc : c ≠ ' ' := fun h => hblank (congrArg some h)
    rw [List.nil_append] at hread
    refine hread.of_step ?_
    simp only [step, if_neg hc, goto]
  rw [hbytes _ _ (List.cons_ne_nil _ _), execute]
  simp [step, headerValue, notify, hon, hret, Except.map]

end Form

-- What `Content-Type` says of a form with such a boundary.
def multipartFormData (token : Str) : Str :=
  "multipart/form-data".toList ++ ';' :: (" boundary".toList ++ '=' :: token)

theorem multipartFormData_tokens {token : Str} (hsemicolon : ';' ∉ token) (hequals : '=' ∉ token)
    (hne : token ≠ []) :
    ssSplitStr (multipartFormData token) ';' =
        ["multipart/form-data".toList, " boundary".toList ++ '=' :: token] ∧
      ssSplitStr (" boundary".toList ++ '=' :: token) '=' = [" boundary".toList, token] := by
  have hfirst : ';' ∉ "multipart/form-data".toList := by decide
  have hkey : '=' ∉ " boundary".toList := by decide
  have hsecond : ';' ∉ " boundary".toList ++ '=' :: token := by
    rw [List.mem_append, List.mem_cons, not_or, not_or]
    exact ⟨by decide, by decide, hsemicolon⟩
  constructor
  · unfold multipartFormData
    rw [ssSplitStr_cons hfirst, ssSplitStr_singleton hsecond (by simp)]
  · rw [ssSplitStr_cons hkey, ssSplitStr_singleton hequals hne]

-- The bytes that a boundary may have.
structure Token (token : Str) : Prop where
  semicolon : ';' ∉ token
  equals : '=' ∉ token
  cr : CR ∉ token
  nul : '\x00' ∉ token
  ne_nil : token ≠ []

theorem ssParseMultipartData_eq {token : Str} (htoken : Token token) {body : RequestBody}
    (hraw : body.rawString ≠ []) :
    ssParseMultipartData (multipartFormData token) body =
      (execute RequestBody.onMultipart
        { parser := { multipartBoundary := "--".toList ++ token }, data := body } body.rawString 0).1 := by
  obtain ⟨htokens, hboundary⟩ :=
    multipartFormData_tokens htoken.semicolon htoken.equals htoken.ne_nil
  have hcopied : ("--".toList ++ token).takeWhile (· ≠ '\x00') = "--".toList ++ token := by
    rw [List.takeWhile_eq_self_iff]
    intro c hc
    have hdashes : '\x00' ∉ "--".toList := by decide
    have hne : c ≠ '\x00' := by
      rintro rfl
      exact (List.mem_append.mp hc).elim hdashes htoken.nul
    simpa using hne
  rw [ssParseMultipartData, if_neg hraw, htokens]
  simp only [hboundary, hcopied]

theorem Token.boundary_free {token : Str} (htoken : Token token) : CR ∉ "--".toList ++ token := by
  rw [List.mem_append, not_or]
  exact ⟨by decide, htoken.cr⟩

-- A form that a client has encoded comes back as it was: each part with its name, its file name, its
-- content type and all its bytes, in order, and the values of all of them as parameters.
theorem form_roundTrip {token : Str} (htoken : Token token) {parts : List Part} (hparts : parts ≠ [])
    (hencodable : ∀ part ∈ parts, part.Encodable ("--".toList ++ token)) (epilogue : Str)
    (reqParams : List (Str × Str)) :
    ssParseMultipartData (multipartFormData token)
        { rawString := encodeForm ("--".toList ++ token) parts epilogue, reqParams := reqParams } =
      { rawString := encodeForm ("--".toList ++ token) parts epilogue
        reqParams := reqParams ++ parts.map fun part => (part.name, part.data)
        fileItems := parts.map Part.item } := by
  rw [ssParseMultipartData_eq htoken (by simp [encodeForm]),
    execute_encodeForm _ htoken.boundary_free (by simp) hparts hencodable]
  simp [RequestBody.parseMultiParams, Part.item, Function.comp_def]

-- A field, and a file whose bytes come close to the boundary.
def upload : List Part :=
  [{ name := "id".toList, data := "7".toList },
    { name := "file".toList, filename := some "a.txt".toList
      contentType := some "text/plain".toList, data := "\r\n--X\r".toList }]

theorem upload_encodable : ∀ part ∈ upload, part.Encodable "--XX".toList := by
  rw [upload, List.forall_mem_cons, List.forall_mem_singleton]
  refine ⟨⟨by decide, by simp, by simp, by decide +kernel⟩, ⟨by decide, ?_, ?_, by decide +kernel⟩⟩
  · rintro filename ⟨⟩
    decide
  · rintro contentType ⟨⟩
    decide

theorem token_example : Token "XX".toList := ⟨by decide, by decide, by decide, by decide, by decide⟩

theorem form_roundTrip_upload :
    (ssParseMultipartData (multipartFormData "XX".toList)
      { rawString := encodeForm "--XX".toList upload [CR, LF] }).reqParams =
        [("id".toList, "7".toList), ("file".toList, "\r\n--X\r".toList)] := by
  have hform := form_roundTrip token_example (by decide) upload_encodable [CR, LF] []
  exact congrArg RequestBody.reqParams hform

-- A part that has another header behind `Content-Disposition` (such as the `Content-Transfer-Encoding`
-- of some clients) ends the parsing there: its bytes and all that follows are lost, and no part of the
-- form becomes a parameter.
theorem form_lost {token : Str} (htoken : Token token) {parts : List Part}
    (hencodable : ∀ part ∈ parts, part.Encodable ("--".toList ++ token)) {part : Part}
    (hpart : part.Encodable ("--".toList ++ token)) {name value : Str} (hname : ∀ c ∈ name, FieldByte c)
    (hother : name ≠ "Content-Disposition".toList ∧ name ≠ "Content-Type".toList)
    (hvalue : CR ∉ value ∧ ';' ∉ value ∧ value ≠ [] ∧ value.head? ≠ some ' ') (rest : Str)
    (reqParams : List (Str × Str)) {raw : Str}
    (hraw : raw = "--".toList ++ token ++ encodeParts ("--".toList ++ token) parts ++ [CR, LF] ++
      (Part.header "Content-Disposition" part.disposition ++
        (name ++ [':', ' '] ++ (value ++ CR :: rest)))) :
    ssParseMultipartData (multipartFormData token) { rawString := raw, reqParams := reqParams } =
      { rawString := raw
        reqParams := reqParams
        fileItems := parts.map Part.item ++
          [{ part.item with parseState := false, contentType := [], data := [] }] } := by
  obtain ⟨hcr, hsemicolon, hne, hblank⟩ := hvalue
  obtain ⟨index, lookbehind, marked, hupTo⟩ := reads_upTo { rawString := raw, reqParams := reqParams }
    htoken.boundary_free (by simp) hencodable
  have hdisposition := reads_disposition { rawString := raw, reqParams := reqParams }
    (parts.map Part.item) hpart index marked lookbehind
  -- the other header is not looked at, but its value is taken for a disposition
  have hfield : ∀ items item, RequestBody.onMultipart
      (RequestBody.reading { rawString := raw, reqParams := reqParams } items item) (.headerField name) =
        (RequestBody.reading { rawString := raw, reqParams := reqParams } items item, 0) := by
    intro items item
    rw [RequestBody.onMultipart, RequestBody.onMultipartName, if_neg hother.1, if_neg hother.2]
  have hbad : ∀ item : FileItem, ssParseMultiDisposition value item = (item, -1) := by
    intro item
    rw [ssParseMultiDisposition, ssSplitStr_singleton hsemicolon hne]
  have hvalue : RequestBody.onMultipart
      (RequestBody.reading { rawString := raw, reqParams := reqParams } (parts.map Part.item)
        { part.item with parseState := false, contentType := [], data := [] }) (.headerValue value) =
        (RequestBody.reading { rawString := raw, reqParams := reqParams } (parts.map Part.item)
          { part.item with parseState := false, contentType := [], data := [] }, -1) := by
    rw [RequestBody.onMultipart, RequestBody.onMultipartValue, withLast_reading]
    simp only [Bool.false_eq_true, if_false, hbad]
  have hparsed := (hupTo.trans hdisposition).trans (reads_name hname (hfield _ _))
  have hrun := hparsed (value ++ CR :: rest) 0 (by simp)
  rw [execute_badValue _ hcr hne hblank (by decide) hvalue rest] at hrun
  have hshape : raw = "--".toList ++ token ++ encodeParts ("--".toList ++ token) parts ++ [CR, LF] ++
      Part.header "Content-Disposition" part.disposition ++ (name ++ [':', ' ']) ++
        (value ++ CR :: rest) := by
    rw [hraw]
    simp only [List.append_assoc]
  have hraw' : raw ≠ [] := by
    rw [hshape]
    simp
  rw [ssParseMultipartData_eq htoken hraw']
  have htext := congrArg (fun text => (execute RequestBody.onMultipart
    ⟨{ multipartBoundary := "--".toList ++ token }, { rawString := raw, reqParams := reqParams }, []⟩
      text 0).1) hshape
  exact htext.trans (congrArg Prod.fst hrun)

theorem form_lost_encoding :
    (ssParseMultipartData (multipartFormData "XX".toList)
      { rawString := "--XX".toList ++ encodeParts "--XX".toList upload ++ [CR, LF] ++
          (Part.header "Content-Disposition" "form-data; name=\x22a\x22".toList ++
            ("Content-Transfer-Encoding".toList ++ [':', ' '] ++
              ("binary".toList ++ CR :: "\n\r\n1\r\n--XX--\r\n".toList))) }).reqParams = [] := by
  have hpart : ({ name := "a".toList, data := [] } : Part).Encodable "--XX".toList :=
    ⟨by decide, by simp, by simp, by decide +kernel⟩
  have hname : ∀ c ∈ "Content-Transfer-Encoding".toList, FieldByte c :=
    forall_mem_of_all (by decide)
  have hlost := form_lost token_example upload_encodable hpart hname (by decide)
    (by decide : CR ∉ "binary".toList ∧ ';' ∉ "binary".toList ∧ "binary".toList ≠ [] ∧
      "binary".toList.head? ≠ some ' ') "\n\r\n1\r\n--XX--\r\n".toList [] rfl
  exact congrArg RequestBody.reqParams hlost

end VideoAdapter.Http
