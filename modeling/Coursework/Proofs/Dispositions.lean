import Coursework.Proofs.DisplayNames
import Coursework.Proofs.Escapes

/-!
# Names in headers

A download is sent under the name that its row has, in one header that says it twice where it is not ASCII: quoted, and
in percent escapes.  Whatever the name, no character of it ends the quotation or the header, and both readings give the
name back.
-/
namespace Coursework

namespace Disposition

theorem quoted?_plain {c : Char} (hquote : c ≠ '"') (hbackslash : c ≠ '\\') (cs : List Char) :
    quoted? (c :: cs) = (quoted? cs).map fun (text, after) => (c :: text, after) := by
  simp [quoted?, hbackslash]

/-- What is escaped is read back up to the closing mark, whatever follows that. -/
theorem quoted?_escape (cs rest : List Char) : quoted? (escape cs ++ '"' :: rest) = some (cs, rest) := by
  induction cs with
  | nil => rfl
  | cons c cs ih =>
    rw [escape, List.flatMap_cons, List.append_assoc]
    by_cases hescaped : isEscaped c = true
    · rw [if_pos hescaped]
      change (quoted? (escape cs ++ '"' :: rest)).map _ = _
      rw [ih]
      rfl
    · have hplain : c ≠ '"' ∧ c ≠ '\\' := by
        constructor <;>
        · rintro rfl
          exact hescaped rfl
      rw [if_neg hescaped, List.singleton_append, quoted?_plain hplain.1 hplain.2]
      change (quoted? (escape cs ++ '"' :: rest)).map _ = _
      rw [ih]
      rfl

theorem extended_eq_chars (name : String) : extended name = (Percent.write isPlain (Bytes.ofText name)).chars := by
  rw [extended, Percent.write, Bytes.chars_flatMap]
  congr 1
  funext b
  split
  · rfl
  · exact Percent.escape_eq_chars b

/-- A character that is seen, and is no sign of a disposition. -/
def isWord (c : Char) : Bool := 33 ≤ c.toNat && c.toNat ≤ 126 && c ≠ '"' && c ≠ '\'' && c ≠ ';'

theorem isWord_of_isPlain : ∀ n < 256, isPlain (UInt8.ofNat n) = true → isWord (Char.ofNat n) = true := by
  decide +kernel

theorem isWord_hexByte : ∀ n < 16, isWord (Char.ofNat (Percent.hexByte n).toNat) = true := by decide

theorem isWord_of_mem_extended {name : String} {c : Char} (h : c ∈ extended name) : isWord c = true := by
  rw [extended_eq_chars] at h
  obtain ⟨b, hb, rfl⟩ := List.mem_map.mp h
  rcases Percent.mem_write hb with hplain | rfl | ⟨n, hn, rfl⟩
  · exact isWord_of_isPlain b.toNat b.toNat_lt (by rwa [UInt8.ofNat_toNat])
  · rfl
  · exact isWord_hexByte n hn

theorem write_lt {bs : Bytes} {b : UInt8} (h : b ∈ Percent.write isPlain bs) : b < 128 := by
  rcases Percent.mem_write h with hplain | rfl | ⟨n, hn, rfl⟩
  · simp only [isPlain, Bool.and_eq_true, decide_eq_true_eq, UInt8.le_iff_toNat_le] at hplain
    rw [UInt8.lt_iff_toNat_lt]
    simp only [UInt8.reduceToNat] at hplain ⊢
    omega
  · decide
  · exact Percent.hexByte_lt n hn

/-- The text that an extended value spells in UTF-8. -/
def spelled? (value : List Char) : Option String := (Percent.decodeAll (Bytes.ofText (String.ofList value))).text?

theorem spelled?_extended (name : String) : spelled? (extended name) = some name := by
  have hbytes : Bytes.ofText (String.ofList (extended name)) = Percent.write isPlain (Bytes.ofText name) := by
    rw [extended_eq_chars]
    exact Bytes.ofText_ascii fun b => write_lt
  rw [spelled?, hbytes, Percent.decodeAll_write (by decide), Bytes.text?_ofText]

/-- How every header begins, up to the name. -/
def opening : List Char := "attachment; filename=\"".toList

/-- How the second name begins. -/
def extension : List Char := "; filename*=UTF-8''".toList

/-- What follows the quoted name. -/
def second (name : String) : List Char := if isAscii name then [] else extension ++ extended name

theorem toList_attachment (name : String) :
    (attachment name).toList = opening ++ (escape name.toList ++ '"' :: second name) := by
  have hspelled : attachment name = String.ofList (opening ++ escape name.toList ++ ['"'] ++ second name) := rfl
  rw [hspelled, String.toList_ofList, List.append_assoc, List.append_assoc, List.singleton_append]

theorem opening_eq : opening = "attachment".toList ++ ';' :: (" filename".toList ++ ['=', '"']) := by decide

theorem extension_eq : extension = ';' :: (" filename".toList ++ ('*' :: '=' :: "UTF-8''".toList)) := by decide

theorem trimStart_filename (rest : List Char) :
    Text.trimStart (" filename".toList ++ rest) = "filename".toList ++ rest := by
  have hblank : " filename".toList = ' ' :: 'f' :: "ilename".toList := by decide
  have hname : "filename".toList = 'f' :: "ilename".toList := by decide
  rw [hblank, hname]
  rfl

theorem isBlank_of_isWord {c : Char} (h : isWord c = true) : Text.isBlank c = false := by
  simp only [isWord, Bool.and_eq_true, decide_eq_true_eq] at h
  simp only [Text.isBlank, Bool.or_eq_false_iff, Bool.and_eq_false_iff, decide_eq_false_iff_not, beq_eq_false_iff_ne]
  omega

/-- The last character, if there is one, is no blank. -/
def EndsPlainly (cs : List Char) : Prop := ∀ c, cs.getLast? = some c → Text.isBlank c = false

theorem EndsPlainly.append {front cs : List Char} (h : EndsPlainly front) (words : ∀ c ∈ cs, isWord c = true) :
    EndsPlainly (front ++ cs) := by
  intro c hc
  rw [List.getLast?_append] at hc
  cases hlast : cs.getLast? with
  | none =>
    rw [hlast] at hc
    exact h c hc
  | some last =>
    rw [hlast] at hc
    cases hc
    exact isBlank_of_isWord (words c (List.mem_of_getLast? hlast))

theorem EndsPlainly.concat (front : List Char) {last : Char} (h : Text.isBlank last = false) :
    EndsPlainly (front ++ [last]) := by
  intro c hc
  rw [List.getLast?_concat] at hc
  exact Option.some.inj hc ▸ h

theorem EndsPlainly.trimEnd {cs : List Char} (h : EndsPlainly cs) : Text.trimEnd cs = cs := by
  have hkept : ([] ++ cs.reverse).dropWhile Text.isBlank = cs.reverse :=
    Text.dropWhile_append_of_head (List.forall_mem_nil _) fun c hc => h c (by rwa [List.head?_reverse] at hc)
  rw [Text.trimEnd, ← List.nil_append cs.reverse, hkept, List.reverse_reverse]

theorem endsPlainly_attachment (name : String) : EndsPlainly (attachment name).toList := by
  have hquoted : opening ++ (escape name.toList ++ '"' :: second name) =
      (opening ++ escape name.toList) ++ ['"'] ++ second name := by simp
  rw [toList_attachment, hquoted]
  unfold second
  split
  · rw [List.append_nil]
    exact .concat _ rfl
  · rw [← List.append_assoc]
    refine .append ?_ fun c => isWord_of_mem_extended
    have hmark : extension = "; filename*=UTF-8'".toList ++ ['\''] := by decide
    rw [hmark, ← List.append_assoc]
    exact .concat _ rfl

theorem isTrimmed_attachment (name : String) : Text.IsTrimmed (attachment name) := by
  refine ⟨fun c hc => ?_, endsPlainly_attachment name⟩
  rw [toList_attachment] at hc
  cases hc
  rfl

theorem cutTrimmed_append_cons {sep : Char} {front : List Char} (h : sep ∉ front) (back : List Char) :
    cutTrimmed sep (front ++ sep :: back) = (Text.trimEnd front, Text.trimStart back) := by
  rw [cutTrimmed, Text.cut_append_cons h]

theorem cutTrimmed_of_not_mem {sep : Char} {cs : List Char} (h : sep ∉ cs) :
    cutTrimmed sep cs = (Text.trimEnd cs, []) := by
  rw [cutTrimmed, Text.cut_of_not_mem h]
  rfl

theorem parameters?_nil (fuel : Nat) : parameters? fuel [] = some [] := by
  cases fuel <;> rfl

theorem isExtended_extended (name : String) : isExtended ("UTF-8''".toList ++ extended name) = true := by
  have hmarks : "UTF-8''".toList = "UTF-8".toList ++ ['\'', '\''] := by decide
  have hplain : '\'' ∉ extended name := fun h => absurd (isWord_of_mem_extended h) (by decide)
  have hsplit : Text.split '\'' ("UTF-8''".toList ++ extended name) = ["UTF-8".toList, [], extended name] := by
    have hrest : Text.split '\'' ('\'' :: extended name) = [[], extended name] := by
      rw [← List.nil_append ('\'' :: extended name), Text.split_append_cons List.not_mem_nil,
        Text.split_of_not_mem hplain]
    rw [hmarks, List.append_assoc]
    change Text.split '\'' ("UTF-8".toList ++ '\'' :: '\'' :: extended name) = _
    rw [Text.split_append_cons (by decide), hrest]
  rw [isExtended, hsplit]
  rfl

/-- The second name is passed over. -/
theorem parameters?_extended (fuel : Nat) (name : String) :
    parameters? (fuel + 1) ("filename".toList ++ '*' :: '=' :: ("UTF-8''".toList ++ extended name)) = some [] := by
  have hname : cutTrimmed '=' ("filename".toList ++ '*' :: '=' :: ("UTF-8''".toList ++ extended name)) =
      ("filename*".toList, "UTF-8''".toList ++ extended name) := by
    have hstar : "filename".toList ++ ['*'] = "filename*".toList := by decide
    have hend : Text.trimEnd "filename*".toList = "filename*".toList := by decide
    have hfirst : "UTF-8''".toList = 'U' :: "TF-8''".toList := by decide
    rw [← List.singleton_append, ← List.append_assoc, hstar, cutTrimmed_append_cons (by decide), hend, hfirst]
    rfl
  have hvalue : cutTrimmed ';' ("UTF-8''".toList ++ extended name) = ("UTF-8''".toList ++ extended name, []) := by
    have hplain : ';' ∉ "UTF-8''".toList ++ extended name := by
      refine fun h => (List.mem_append.mp h).elim (by decide) fun h => ?_
      exact absurd (isWord_of_mem_extended h) (by decide)
    have hmark : Text.isBlank '\'' = false := rfl
    have hends : EndsPlainly ("UTF-8''".toList ++ extended name) :=
      .append (.concat "UTF-8'".toList hmark) fun c => isWord_of_mem_extended
    rw [cutTrimmed_of_not_mem hplain, hends.trimEnd]
  rw [parameters?]
  · simp only [hname, hvalue, isExtended_extended, parameters?_nil]
    rfl
  · simp

/-- The first name is read as it was before it was quoted. -/
theorem parameters?_filename (fuel : Nat) (name : String) (rest : List Char) :
    parameters? (fuel + 1) ("filename".toList ++ '=' :: '"' :: (escape name.toList ++ '"' :: rest)) =
      (parameters? fuel (Text.trimStart (Text.cut ';' rest).2)).map (("filename", name) :: ·) := by
  have hend : Text.trimEnd "filename".toList = "filename".toList := by decide
  have hname : cutTrimmed '=' ("filename".toList ++ '=' :: '"' :: (escape name.toList ++ '"' :: rest)) =
      ("filename".toList, '"' :: (escape name.toList ++ '"' :: rest)) := by
    rw [cutTrimmed_append_cons (by decide), hend]
    rfl
  rw [parameters?]
  · have hlower : String.ofList ("filename".toList.map Char.toLower) = "filename" := by decide
    have hproper : (decide ("filename".toList = []) || decide ("filename".toList = ['*']) ||
        decide ('"' :: (escape name.toList ++ '"' :: rest) = [])) = false := by
      rw [decide_eq_false (List.cons_ne_nil _ _)]
      decide
    have hlast : "filename".toList.getLast? ≠ some '*' := by decide
    simp only [hname, value?, quoted?_escape, hlower, hproper, if_neg hlast, Bool.false_eq_true, if_false]
    change ((parameters? fuel (Text.trimStart (Text.cut ';' rest).2)).bind fun more =>
      some (("filename", String.ofList name.toList) :: more)) = _
    rw [String.ofList_toList, Option.map_eq_bind]
    rfl
  · simp

theorem parse?_attachment (name : String) : parse? (attachment name) = some ⟨"attachment", [("filename", name)]⟩ := by
  have htrim : Text.trim (attachment name).toList = (attachment name).toList := by
    simpa using Text.trim_between (isTrimmed_attachment name) (List.forall_mem_nil _) (List.forall_mem_nil _)
  have hend : Text.trimEnd "attachment".toList = "attachment".toList := by decide
  have hkind : cutTrimmed ';' (attachment name).toList =
      ("attachment".toList, "filename".toList ++ '=' :: '"' :: (escape name.toList ++ '"' :: second name)) := by
    rw [toList_attachment, opening_eq, List.append_assoc, List.cons_append, List.append_assoc,
      cutTrimmed_append_cons (by decide), trimStart_filename, hend]
    rfl
  have hparameters : ∀ fuel, parameters? (fuel + 2)
      ("filename".toList ++ '=' :: '"' :: (escape name.toList ++ '"' :: second name)) = some [("filename", name)] := by
    intro fuel
    rw [parameters?_filename]
    unfold second
    split
    · have hnone : Text.trimStart (Text.cut ';' ([] : List Char)).2 = [] := rfl
      rw [hnone, parameters?_nil]
      rfl
    · have hcut : Text.cut ';' (extension ++ extended name) =
          ([], " filename".toList ++ ('*' :: '=' :: ("UTF-8''".toList ++ extended name))) := by
        rw [extension_eq]
        exact Text.cut_append_cons List.not_mem_nil _
      rw [hcut, trimStart_filename, parameters?_extended]
      rfl
  have hlength : 1 ≤ ("filename".toList ++ '=' :: '"' :: (escape name.toList ++ '"' :: second name)).length := by simp
  obtain ⟨fuel, hfuel⟩ := Nat.exists_eq_add_of_le' hlength
  have hproper : "attachment".toList ≠ [] := by decide
  have hlower : String.ofList ("attachment".toList.map Char.toLower) = "attachment" := by decide
  rw [parse?, htrim, hkind]
  simp only [if_neg hproper, hfuel, hparameters, hlower]
  rfl

theorem isHeaderChar_of_isWord {c : Char} (h : isWord c = true) : isHeaderChar c = true := by
  simp only [isWord, Bool.and_eq_true, decide_eq_true_eq] at h
  simp only [isHeaderChar, Bool.or_eq_true, Bool.and_eq_true, decide_eq_true_eq]
  omega

theorem isHeaderChar_of_mem_escape {cs : List Char} (h : ∀ c ∈ cs, isHeaderChar c = true) :
    ∀ c ∈ escape cs, isHeaderChar c = true := by
  intro c hc
  obtain ⟨d, hd, hc⟩ := List.mem_flatMap.mp hc
  split at hc
  · rcases List.mem_cons.mp hc with rfl | hc
    · rfl
    · exact List.mem_singleton.mp hc ▸ h d hd
  · exact List.mem_singleton.mp hc ▸ h d hd

/-- A header carries every name whose characters it can carry. -/
theorem isHeaderChar_of_mem_attachment {name : String} (h : ∀ c ∈ name.toList, isHeaderChar c = true) :
    ∀ c ∈ (attachment name).toList, isHeaderChar c = true := by
  have hopening : ∀ c ∈ opening, isHeaderChar c = true := List.all_eq_true.mp rfl
  have hextension : ∀ c ∈ extension, isHeaderChar c = true := List.all_eq_true.mp rfl
  have hsecond : ∀ c ∈ second name, isHeaderChar c = true := by
    unfold second
    split
    · exact List.forall_mem_nil _
    · exact List.forall_mem_append.mpr ⟨hextension, fun c hc => isHeaderChar_of_isWord (isWord_of_mem_extended hc)⟩
  rw [toList_attachment]
  exact List.forall_mem_append.mpr ⟨hopening, List.forall_mem_append.mpr
    ⟨isHeaderChar_of_mem_escape h, List.forall_mem_cons.mpr ⟨rfl, hsecond⟩⟩⟩

theorem attachment?_of_printable {name : String} (h : ∀ c ∈ name.toList, isHeaderChar c = true) :
    attachment? name = some (attachment name) :=
  if_pos (List.all_eq_true.mpr (isHeaderChar_of_mem_attachment h))

/-- The header is one line and announces an attachment of this name: quoted up to the mark that closes the name, and
once more behind it, in escapes, exactly if the name is not ASCII. -/
structure Announces (header name : String) : Prop where
  oneLine : '\r' ∉ header.toList ∧ '\n' ∉ header.toList
  understood : parse? header = some ⟨"attachment", [("filename", name)]⟩
  spelled : ∃ body rest, header.toList = "attachment; filename=\"".toList ++ body ∧
    quoted? body = some (name.toList, rest) ∧
    ((∀ c ∈ name.toList, c.toNat < 128) ∧ rest = [] ∨
      (¬ ∀ c ∈ name.toList, c.toNat < 128) ∧ ∃ value, rest = "; filename*=UTF-8''".toList ++ value ∧
        (∀ c ∈ value, isWord c = true) ∧ spelled? value = some name)

theorem announces_attachment {name : String} (h : ∀ c ∈ name.toList, isHeaderChar c = true) :
    Announces (attachment name) name := by
  have hcarried := isHeaderChar_of_mem_attachment h
  have hascii : isAscii name = true ↔ ∀ c ∈ name.toList, c.toNat < 128 := by simp [isAscii]
  refine ⟨⟨fun hmem => ?_, fun hmem => ?_⟩, parse?_attachment name, _, _, toList_attachment name,
    quoted?_escape name.toList (second name), ?_⟩
  · exact absurd (hcarried _ hmem) (by decide)
  · exact absurd (hcarried _ hmem) (by decide)
  · unfold second
    by_cases hname : isAscii name = true
    · exact Or.inl ⟨hascii.mp hname, if_pos hname⟩
    · exact Or.inr ⟨mt hascii.mpr hname, extended name, if_neg hname, fun c => isWord_of_mem_extended,
        spelled?_extended name⟩

end Disposition

namespace Server

variable {s t : Server} {now : Moment} {r : Request}

/-- Whatever visits there have been, rows and blobs belong together if storage keys never repeat. -/
theorem visitAll_shelved (s : Server) (ids keys : Nat → Uuid) (plan : List PlannedFault) (visits : List Visit) :
    let past := ((s.opened ids keys plan).visitAll visits).1
    let h : History := ⟨past, ((s.opened ids keys plan).visitAll visits).2.backend⟩
    h.FreshKeys → h.IsShelved ∧ h.store.Intact := by
  have serve : ∀ (h : History) (now : Timestamp) (op : Operation), (h.FreshKeys → h.IsShelved ∧ h.store.Intact) →
      (h.serve now op).FreshKeys → (h.serve now op).IsShelved ∧ (h.serve now op).store.Intact := by
    intro h now op ih fresh
    obtain ⟨hs, hi⟩ := ih (History.FreshKeys.of_serveAll [(now, op)] fresh)
    exact ⟨History.serve_shelved hs hi fresh, History.serve_intact hi now op⟩
  have first : History.FreshKeys ⟨[], .start ids keys plan⟩ →
      History.IsShelved ⟨[], .start ids keys plan⟩ ∧ (History.store ⟨[], .start ids keys plan⟩).Intact :=
    fun _ => ⟨Shelved.empty _, Store.intact_empty⟩
  exact visitAll_induction (s := s.opened ids keys plan) (P := fun h => h.FreshKeys → h.IsShelved ∧ h.store.Intact)
    serve (fun _ ih => ih) visits first

/-- A download is answered with what comes of it for the caller whom the request shows. -/
theorem handle_download {c : Caller} {segment : String} {u : Uuid}
    (route : Endpoint.route r.method r.target.segments = some (.download segment))
    (named : Request.pathId segment = .ok u) (shown : s.Identifies now r c) :
    (s.handle now r).1 =
      tell (Operation.respond (.download c.subject u.text)) (s.operate now (.download c.subject u.text)).1 := by
  have hcaller := authenticate_eq_ok.mpr (Or.inr ⟨c, shown, rfl⟩)
  rcases hauthenticated : s.authenticate now r with ⟨_, t⟩
  rw [hauthenticated] at hcaller
  cases hcaller
  have haction : (Endpoint.download segment).action r (some c) t.settings.maxUploadBytes =
      .ok (.perform (.download c.subject u.text)) := by
    simp only [Endpoint.action, named]
    rfl
  have hplan : t.plan (some c) r = .ok (.perform (.download c.subject u.text)) :=
    plan_eq_ok.mpr ⟨_, route, rfl, haction⟩
  have hadmitted : s.admitted? now r = some (.download c.subject u.text, t) := by
    simp only [admitted?, hauthenticated, hplan]
  obtain ⟨hbackend, hhandle⟩ := handle_of_admitted hadmitted
  rw [hhandle, operate, operate, hbackend]

/-- Whatever visits there have been: an attachment has the name that its upload was accepted under, and if a header can
carry that name, then whoever has a grant and is hindered by nothing gets the bytes of the upload, in a file that one
header announces under exactly this name. -/
theorem downloads_announce_names (s : Server) (ids keys : Nat → Uuid) (plan : List PlannedFault) (visits : List Visit)
    (fresh : History.FreshKeys ⟨((s.opened ids keys plan).visitAll visits).1,
      ((s.opened ids keys plan).visitAll visits).2.backend⟩) :
    let past := ((s.opened ids keys plan).visitAll visits).1
    let t := ((s.opened ids keys plan).visitAll visits).2
    ∀ lessonId rawName bytes row, ⟨.upload lessonId rawName bytes, .ok row⟩ ∈ past →
      FileName.sanitize rawName = .ok row.name ∧
      (row ∈ t.backend.store.attachments →
        (∀ c ∈ row.name.toList, c.toNat < 32 ∨ c.toNat = 127 → c = '\t') →
        ∀ now r c segment u, Endpoint.route r.method r.target.segments = some (.download segment) →
          Request.pathId segment = .ok u → u.text = row.id → t.nextStep.Identifies now r c →
          t.backend.store.hasGrant c.subject row.lessonId = true →
          History.ServesWithin ⟨past, t.backend⟩ .nothing now.stamp (.download c.subject row.id) →
          ∃ header, Disposition.Announces header row.name ∧
            (t.nextStep.respond now r).1.status = 200 ∧
            (t.nextStep.respond now r).1.disposition = some header ∧
            (t.nextStep.respond now r).1.body = .octets bytes) := by
  intro past t lessonId rawName bytes row hmem
  obtain ⟨hs, hi⟩ := s.visitAll_shelved ids keys plan visits fresh
  refine ⟨(hs.uploads _ _ _ _ hmem).1, ?_⟩
  intro hrow printable now r c segment u route named hid shown granted within
  have hcarried : ∀ d ∈ row.name.toList, Disposition.isHeaderChar d = true := by
    intro d hd
    have htab := printable d hd
    simp only [Disposition.isHeaderChar, Bool.or_eq_true, Bool.and_eq_true, decide_eq_true_eq]
    by_cases hcontrol : d.toNat < 32 ∨ d.toNat = 127
    · exact Or.inr (htab hcontrol)
    · exact Or.inl (by omega)
  have hresult := History.download_uploaded hs hi hmem hrow granted within
  have hoperate : (t.nextStep.operate now (.download c.subject u.text)).1 = .ok ⟨row.name, bytes⟩ := by
    rw [hid]
    exact hresult
  have hanswer := handle_download route named shown
  rw [hoperate] at hanswer
  have hfile : (t.nextStep.handle now r).1 = .file (Disposition.attachment row.name) bytes := by
    rw [hanswer, tell, Operation.respond, Response.download, Disposition.attachment?_of_printable hcarried]
  refine ⟨_, Disposition.announces_attachment hcarried, ?_, ?_, ?_⟩
  · exact congrArg Response.status hfile
  · exact congrArg Response.disposition hfile
  · exact congrArg Response.body hfile

/-- A lesson with a file whose name has marks of a header in it, and a grant of it. -/
def sampleNaming : List Visit :=
  [Operation.createCourse ⟨"Logic", ""⟩, .addChapter (Uuid.numbered 0).text ⟨"Sets", "", 1, none⟩,
    .addLesson (Uuid.numbered 1).text ⟨"Unions", "", "", 1, none⟩,
    .upload (Uuid.numbered 2).text "week 1/Ü \"a;b\"\t%41'.pdf" [7],
    .grant "u" (Uuid.numbered 2).text].map (.operate ⟨0, 0⟩)

/-- The teacher asks for that file. -/
def sampleFetching : Request where
  method := "GET"
  target := ⟨Bytes.ofText ("/attachments/download/" ++ (Uuid.numbered 3).text), []⟩
  headers := [⟨"Authorization", scheme ++ Verifier.sampleToken⟩]
  body := []

theorem downloads_announce_names_sample :
    let t := ((sampleSchool.opened .numbered .numbered []).visitAll sampleNaming).2
    ∃ header, Disposition.Announces header "Ü \"a;b\"\t%41'.pdf" ∧
      (t.nextStep.respond ⟨60, 0⟩ sampleFetching).1.status = 200 ∧
      (t.nextStep.respond ⟨60, 0⟩ sampleFetching).1.disposition = some header := by
  intro t
  have hdrawn : t.backend.keysDrawn = 1 := by decide +kernel
  have fresh : History.FreshKeys
      ⟨((sampleSchool.opened .numbered .numbered []).visitAll sampleNaming).1, t.backend⟩ := by
    intro i j hi hj _
    have hi : i < t.backend.keysDrawn := hi
    have hj : j < t.backend.keysDrawn := hj
    omega
  have hrow : ⟨(Uuid.numbered 3).text, "Ü \"a;b\"\t%41'.pdf", (Uuid.numbered 0).text ++ ".pdf", (Uuid.numbered 2).text,
      .ofUnix 0⟩ ∈ t.backend.store.attachments := by decide +kernel
  have granted : t.backend.store.hasGrant "u" (Uuid.numbered 2).text = true := by decide +kernel
  have hroute : Endpoint.route sampleFetching.method sampleFetching.target.segments =
      some (.download (Uuid.numbered 3).text) := by decide +kernel
  have hid : Request.pathId (Uuid.numbered 3).text = .ok (Uuid.numbered 3) := by decide +kernel
  have hverify : ((Verifier.fixed Verifier.sampleSettings Verifier.sampleKeys).verify t.nextStep.provider ⟨60, 0⟩
      Verifier.sampleToken).1 = .ok ⟨"u", none, ["teacher"]⟩ := by
    rw [Verifier.verify_fixed]
    exact Verifier.sample_verifies
  have shown : t.nextStep.Identifies ⟨60, 0⟩ sampleFetching ⟨"u", none, ["teacher"]⟩ :=
    ⟨_, _, _, rfl, rfl, sampleCredentials.property, hverify⟩
  have unplanned : t.backend.plan = [] := by decide +kernel
  have unarmed : t.backend.armed = [] := by decide +kernel
  have allows : t.backend.Allows .nothing := by
    constructor
    · rw [unplanned]
      exact List.forall_mem_nil _
    · rw [unarmed]
      exact List.forall_mem_nil _
  obtain ⟨lessonId, rawName, bytes, hmem⟩ :=
    (visitAll_shelved sampleSchool .numbered .numbered [] sampleNaming fresh).1.rows _ hrow
  have printable : ∀ c ∈ "Ü \"a;b\"\t%41'.pdf".toList, c.toNat < 32 ∨ c.toNat = 127 → c = '\t' := by
    intro c hc
    have htab : "Ü \"a;b\"\t%41'.pdf".toList.all (fun c => c.toNat < 32 ∨ c.toNat = 127 → c = '\t') = true := by
      decide +kernel
    exact of_decide_eq_true (List.all_eq_true.mp htab c hc)
  obtain ⟨header, hannounces, hstatus, hdisposition, -⟩ :=
    (downloads_announce_names sampleSchool .numbered .numbered [] sampleNaming fresh _ _ _ _ hmem).2 hrow printable
      ⟨60, 0⟩ sampleFetching _ _ _ hroute hid rfl shown granted (History.serve_allows allows _ _).1
  subst t
  exact ⟨header, hannounces, hstatus, hdisposition⟩

end Server

end Coursework
