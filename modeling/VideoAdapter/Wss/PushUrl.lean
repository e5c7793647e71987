import VideoAdapter.Lib.Text
import VideoAdapter.Wss.Handlers

namespace VideoAdapter.Wss

open Lib

-- The three reference arguments of `CheckPushParser`.
structure PushUrl where
  cmsid : String := ""
  devid : String := ""
  key : String := ""
deriving DecidableEq, Repr

-- `CheckPushParser` with its positions as it stores them. No result where a cut throws. The
-- arguments are filled in one after the other, also when a later part is missing.
def PushUrl.checkPushParser (src : String) (out : PushUrl) : Option (Bool × PushUrl) :=
  let pos1 := findPos "cmsid=".toList src.toList
  if pos1 = -1 then some (false, out)
  else
    (substr (toInt (pos1 + 6)) src.toList).bind fun tmp =>
      let pos2 := findPos "&devid=".toList tmp
      if pos2 = -1 then some (false, out)
      else
        let out := { out with cmsid := String.ofList (substrTo pos2 tmp) }
        (substr (toInt (pos2 + 7)) tmp).bind fun tmp =>
          let pos3 := findPos "&key=".toList tmp
          if pos3 = -1 then some (false, out)
          else
            let out := { out with devid := String.ofList (substrTo pos3 tmp) }
            (substr (toInt (pos3 + 5)) tmp).map fun key =>
              (true, { out with key := String.ofList key })

-- The format of a push URL: some text, then the three parts behind their names.
structure Decomposes (src p c d k : String) : Prop where
  text : src = p ++ "cmsid=" ++ c ++ "&devid=" ++ d ++ "&key=" ++ k
  before : ¬ "cmsid=".toList <:+: p.toList
  cmsid : ¬ "&devid=".toList <:+: c.toList
  devid : ¬ "&key=".toList <:+: d.toList

theorem unbordered_cmsid : Unbordered "cmsid=".toList := by decide +kernel

theorem unbordered_devid : Unbordered "&devid=".toList := by decide +kernel

theorem unbordered_key : Unbordered "&key=".toList := by decide +kernel

-- The text behind each of the three names.
theorem Decomposes.toList {src p c d k : String} (h : Decomposes src p c d k) :
    src.toList = p.toList ++ ("cmsid=".toList ++ (c.toList ++ ("&devid=".toList ++
      (d.toList ++ ("&key=".toList ++ k.toList))))) := by
  rw [h.text]
  simp only [String.toList_append, List.append_assoc]

theorem decomposes_ofList {src : String} {p c d k : List Char} (hp : ¬ "cmsid=".toList <:+: p)
    (hc : ¬ "&devid=".toList <:+: c) (hd : ¬ "&key=".toList <:+: d)
    (hsrc : src.toList = p ++ ("cmsid=".toList ++ (c ++ ("&devid=".toList ++
      (d ++ ("&key=".toList ++ k)))))) :
    Decomposes src (String.ofList p) (String.ofList c) (String.ofList d) (String.ofList k) where
  text := by
    rw [← String.toList_inj, hsrc]
    simp only [String.toList_append, String.toList_ofList, List.append_assoc]
  before := by
    rw [@String.toList_ofList p]
    exact hp
  cmsid := by
    rw [@String.toList_ofList c]
    exact hc
  devid := by
    rw [@String.toList_ofList d]
    exact hd

theorem checkPushParser_of_decomposes {src p c d k : String} (hsize : src.length < 2 ^ 31)
    (h : Decomposes src p c d k) (out : PushUrl) :
    PushUrl.checkPushParser src out = some (true, { cmsid := c, devid := d, key := k }) := by
  have hsrc := h.toList
  rw [← String.length_toList, hsrc] at hsize
  have hsize1 := lt_of_le_of_lt (List.sublist_append_right _ _).length_le hsize
  have hsize2 := lt_of_le_of_lt (List.sublist_append_right _ _).length_le hsize1
  have hsize3 := lt_of_le_of_lt (List.sublist_append_right _ _).length_le hsize2
  have hsize4 := lt_of_le_of_lt (List.sublist_append_right _ _).length_le hsize3
  obtain ⟨hpos1, -, hrest1⟩ := cuts_at_seam (by decide) unbordered_cmsid h.before hsize
  obtain ⟨hpos2, hcmsid, hrest2⟩ := cuts_at_seam (by decide) unbordered_devid h.cmsid hsize2
  obtain ⟨hpos3, hdevid, hrest3⟩ := cuts_at_seam (by decide) unbordered_key h.devid hsize4
  have hlen1 : ("cmsid=".toList.length : Int) = 6 := by decide
  have hlen2 : ("&devid=".toList.length : Int) = 7 := by decide
  have hlen3 : ("&key=".toList.length : Int) = 5 := by decide
  rw [hlen1] at hrest1
  rw [hlen2] at hrest2
  rw [hlen3] at hrest3
  have hne (n : Nat) : (n : Int) ≠ -1 := by omega
  simp only [PushUrl.checkPushParser, hsrc, hpos1, if_neg (hne _), hrest1, Option.bind_some, hpos2,
    hcmsid, hrest2, hpos3, hdevid, hrest3, Option.map_some, String.ofList_toList]

-- Each search either fails, and the result is false, or cuts off one part.
theorem decomposes_or_refused {src : String} (hsize : src.length < 2 ^ 31) (out : PushUrl) :
    (∃ p c d k, Decomposes src p c d k) ∨
      ∃ out', PushUrl.checkPushParser src out = some (false, out') := by
  have hne (n : Nat) : (n : Int) ≠ -1 := by omega
  have hlen1 : ("cmsid=".toList.length : Int) = 6 := by decide
  have hlen2 : ("&devid=".toList.length : Int) = 7 := by decide
  by_cases h1 : "cmsid=".toList <:+: src.toList
  · obtain ⟨p, tmp, hsrc, hp⟩ := exists_seam (by decide) h1
    rw [← String.length_toList, hsrc] at hsize
    have hsize1 := lt_of_le_of_lt (List.sublist_append_right _ _).length_le hsize
    have hsize2 := lt_of_le_of_lt (List.sublist_append_right _ _).length_le hsize1
    obtain ⟨hpos1, -, hrest1⟩ := cuts_at_seam (by decide) unbordered_cmsid hp hsize
    rw [hlen1] at hrest1
    by_cases h2 : "&devid=".toList <:+: tmp
    · obtain ⟨c, tmp', rfl, hc⟩ := exists_seam (by decide) h2
      obtain ⟨hpos2, hcmsid, hrest2⟩ := cuts_at_seam (by decide) unbordered_devid hc hsize2
      rw [hlen2] at hrest2
      by_cases h3 : "&key=".toList <:+: tmp'
      · obtain ⟨d, k, rfl, hd⟩ := exists_seam (by decide) h3
        exact .inl ⟨String.ofList p, String.ofList c, String.ofList d, String.ofList k,
          decomposes_ofList hp hc hd hsrc⟩
      · refine .inr ⟨{ out with cmsid := String.ofList c }, ?_⟩
        simp only [PushUrl.checkPushParser, hsrc, hpos1, if_neg (hne _), hrest1, Option.bind_some,
          hpos2, hcmsid, hrest2, findPos_of_absent (by decide) h3, if_true]
    · refine .inr ⟨out, ?_⟩
      simp only [PushUrl.checkPushParser, hsrc, hpos1, if_neg (hne _), hrest1, Option.bind_some,
        findPos_of_absent (by decide) h2, if_true]
  · refine .inr ⟨out, ?_⟩
    simp only [PushUrl.checkPushParser, findPos_of_absent (by decide) h1, if_true]

theorem Decomposes.unique {src p c d k p' c' d' k' : String} (hsize : src.length < 2 ^ 31)
    (h : Decomposes src p c d k) (h' : Decomposes src p' c' d' k') :
    p = p' ∧ c = c' ∧ d = d' ∧ k = k' := by
  have hout := checkPushParser_of_decomposes hsize h {}
  rw [checkPushParser_of_decomposes hsize h' {}] at hout
  obtain ⟨rfl, rfl, rfl⟩ : c' = c ∧ d' = d ∧ k' = k := by simpa using hout
  refine ⟨?_, rfl, rfl, rfl⟩
  have htext := h.toList.symm.trans h'.toList
  rwa [List.append_left_inj, String.toList_inj] at htext

-- `splitAtFirst` makes the same cut without the positions.
theorem splitAtFirst_eq (word s : List Char) :
    splitAtFirst word s =
      (findWord word s).map fun i => (s.take i, s.drop (i + word.length)) := by
  induction s with
  | nil =>
      unfold splitAtFirst findWord
      split
      · simp
      · rfl
  | cons c rest ih =>
      unfold splitAtFirst findWord
      split
      · simp
      · rw [ih]
        cases findWord word rest with
        | none => rfl
        | some i => simp [Nat.add_right_comm]

theorem splitAtFirst_seam {word : List Char} (hword : word ≠ []) (hborder : Unbordered word)
    {before : List Char} (hbefore : ¬ word <:+: before) (after : List Char) :
    splitAtFirst word (before ++ (word ++ after)) = some (before, after) := by
  rw [splitAtFirst_eq, findWord_seam hword hborder hbefore, Option.map_some, List.take_left,
    ← List.append_assoc, ← List.length_append, List.drop_left]

theorem splitAtFirst_some {word : List Char} (hword : word ≠ []) {s before after : List Char}
    (hborder : Unbordered word) (h : splitAtFirst word s = some (before, after)) :
    s = before ++ (word ++ after) ∧ ¬ word <:+: before := by
  by_cases hs : word <:+: s
  · obtain ⟨before', after', rfl, hbefore⟩ := exists_seam hword hs
    rw [splitAtFirst_seam hword hborder hbefore] at h
    cases h
    exact ⟨rfl, hbefore⟩
  · rw [splitAtFirst_eq, (findWord_eq_none_iff hword).mpr hs] at h
    cases h

-- The answer that the push check works with is the one of the parser with its positions.
theorem checkPushParser_eq_some_iff {src c d k : String} :
    checkPushParser src = some (c, d, k) ↔ ∃ p, Decomposes src p c d k := by
  constructor
  · intro h
    simp only [checkPushParser, Option.bind_eq_bind, Option.pure_def, Option.bind_eq_some_iff,
      Prod.exists] at h
    obtain ⟨p, tmp, h1, c', tmp', h2, d', k', h3, hout⟩ := h
    cases hout
    obtain ⟨hsrc, hp⟩ := splitAtFirst_some (by decide) unbordered_cmsid h1
    obtain ⟨htmp, hc⟩ := splitAtFirst_some (by decide) unbordered_devid h2
    obtain ⟨htmp', hd⟩ := splitAtFirst_some (by decide) unbordered_key h3
    refine ⟨String.ofList p, decomposes_ofList hp hc hd ?_⟩
    rw [hsrc, htmp, htmp']
  · rintro ⟨p, h⟩
    simp only [checkPushParser, h.toList, Option.bind_eq_bind, Option.pure_def, Option.bind_some,
      splitAtFirst_seam (by decide) unbordered_cmsid h.before,
      splitAtFirst_seam (by decide) unbordered_devid h.cmsid,
      splitAtFirst_seam (by decide) unbordered_key h.devid, String.ofList_toList]

-- The parser inverts the format of the push URL, and accepts nothing else.
theorem checkPushParser_inverts (src : String) (hsize : src.length < 2 ^ 31) (out : PushUrl) :
    (∀ p c d k, Decomposes src p c d k →
      PushUrl.checkPushParser src out = some (true, { cmsid := c, devid := d, key := k })) ∧
    (∃ accepted out', PushUrl.checkPushParser src out = some (accepted, out') ∧
      (accepted = true ↔ ∃ p c d k, Decomposes src p c d k)) ∧
    ∀ p c d k p' c' d' k', Decomposes src p c d k → Decomposes src p' c' d' k' →
      p = p' ∧ c = c' ∧ d = d' ∧ k = k' := by
  refine ⟨fun p c d k h => checkPushParser_of_decomposes hsize h out, ?_,
    fun p c d k p' c' d' k' => Decomposes.unique hsize⟩
  by_cases hsrc : ∃ p c d k, Decomposes src p c d k
  · obtain ⟨p, c, d, k, h⟩ := hsrc
    exact ⟨true, _, checkPushParser_of_decomposes hsize h out, fun _ => ⟨p, c, d, k, h⟩, fun _ => rfl⟩
  · rcases decomposes_or_refused hsize out with h | ⟨out', hfalse⟩
    · exact absurd h hsrc
    · exact ⟨false, out', hfalse, fun h => absurd h (by decide), fun h => absurd h hsrc⟩

-- A `cmsid` that ends like the beginning of the next name.
theorem checkPushParser_inverts_overlap :
    PushUrl.checkPushParser "rtmp://h/live?cmsid=a&dev&devid=7&key=k&key=" {} =
      some (true, { cmsid := "a&dev", devid := "7", key := "k&key=" }) :=
  (checkPushParser_inverts "rtmp://h/live?cmsid=a&dev&devid=7&key=k&key=" (by decide +kernel) {}).1
    "rtmp://h/live?" "a&dev" "7" "k&key="
    ⟨by decide +kernel, by decide +kernel, by decide +kernel, by decide +kernel⟩

end VideoAdapter.Wss
