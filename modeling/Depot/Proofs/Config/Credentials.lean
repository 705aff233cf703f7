import Depot.Config.Credentials
import Depot.Proofs.Json.Record
import Depot.Proofs.Text.Base64

/-!
# The forms of credentials

The settings bring a document of credentials as it is, in base 64 with blanks around it, or in a
file (`Brings`). All forms lead to what the document itself is read as
(`credentials_of_brings`), whether it is in order or not; and a document that credentials were
written as is read back as these credentials (`ofText_toJson`). The main statement is
`credentials_of_forms`.
-/

set_option autoImplicit false

namespace Depot

open Depot.Json (Layout Stops Takes Value scanColon_cons readString_write readString?_write
  readObject_write skipSpace_cons write_object)

/-! ## The document -/

namespace Credentials

section Member

variable (L : Layout) (level : Nat) {m : Members} (s : String) (rest : List Char)

theorem readMember_accessKeyId (h : m.accessKeyId = none) :
    readMember m "access_key_id" (':' :: (L.lead ++ ((Value.string s).write L level ++ rest))) =
      .ok ({ m with accessKeyId := some s }, rest) := by
  simp only [readMember, h, scanColon_cons, readString_write, bind, Except.bind]
  rfl

theorem readMember_secretAccessKey (h : m.secretAccessKey = none) :
    readMember m "secret_access_key"
        (':' :: (L.lead ++ ((Value.string s).write L level ++ rest))) =
      .ok ({ m with secretAccessKey := some s }, rest) := by
  simp only [readMember, h, scanColon_cons, readString_write, bind, Except.bind]
  rfl

theorem readMember_sessionToken (h : m.sessionToken = none) :
    readMember m "session_token" (':' :: (L.lead ++ ((Value.string s).write L level ++ rest))) =
      .ok ({ m with sessionToken := some (some s) }, rest) := by
  simp only [readMember, h, scanColon_cons, readString?_write, bind, Except.bind]
  rfl

end Member

/-- The members of credentials. A token that is not set is none of them. -/
def members (c : Credentials) : List (String × Value) :=
  [("access_key_id", .string c.accessKeyId), ("secret_access_key", .string c.secretAccessKey)] ++
    (c.sessionToken.map fun t => ("session_token", Value.string t)).toList

/-- The members are taken one after the other, each of them once. -/
theorem takes_members (L : Layout) (level : Nat) (c : Credentials) :
    Takes readMember L level ⟨none, none, none⟩ c.members
      ⟨some c.accessKeyId, some c.secretAccessKey, c.sessionToken.map some⟩ := by
  obtain ⟨accessKeyId, secretAccessKey, sessionToken⟩ := c
  have htoken : Takes readMember L level ⟨some accessKeyId, some secretAccessKey, none⟩
      (sessionToken.map fun t => ("session_token", Value.string t)).toList
      ⟨some accessKeyId, some secretAccessKey, sessionToken.map some⟩ := by
    cases sessionToken with
    | none => exact .nil
    | some t => exact .cons (fun rest _ => readMember_sessionToken L _ t rest rfl) .nil
  apply Takes.cons
  · exact fun rest _ => readMember_accessKeyId L _ accessKeyId rest rfl
  apply Takes.cons
  · exact fun rest _ => readMember_secretAccessKey L _ secretAccessKey rest rfl
  · exact htoken

theorem ofMembers_members (c : Credentials) (rest : List Char) :
    ofMembers ⟨some c.accessKeyId, some c.secretAccessKey, c.sessionToken.map some⟩ rest =
      .ok c := by
  obtain ⟨accessKeyId, secretAccessKey, sessionToken⟩ := c
  cases sessionToken with
  | none => rfl
  | some t => rfl

/-- Credentials are read back from their JSON form, in whatever layout. -/
theorem scan_write (L : Layout) (level : Nat) (c : Credentials) (rest : List Char) :
    scan (c.toJson.write L level ++ rest) = .ok (c, rest) := by
  have hjson : c.toJson = .object c.members := rfl
  rw [hjson, write_object, scan, skipSpace_cons rfl]
  simp only [readObject_write (takes_members L level c), ofMembers_members, bind, Except.bind]
  rfl

/-- **Credentials survive JSON**, whatever characters they are made of, with or without a token. -/
theorem ofText_toJson (c : Credentials) : ofText c.toJson.toText = .ok c := by
  have hread := scan_write .compact 0 c []
  rw [List.append_nil] at hread
  rw [Value.toText, Value.compact_eq 0, ofText, String.toList_ofList, hread]
  rfl

end Credentials

/-! ## The forms -/

/-- The bytes from some place on are put behind those that were taken, which are in reverse order. -/
theorem toList_loop (bytes : ByteArray) (i : Nat) (taken : List UInt8) :
    ByteArray.toList.loop bytes i taken = taken.reverse ++ bytes.data.toList.drop i := by
  fun_induction ByteArray.toList.loop bytes i taken with
  | case1 i taken hi ih =>
    have hlength : i < bytes.data.toList.length := hi
    have hget : bytes.get! i = bytes.data.toList[i] := getElem!_pos bytes.data i hi
    rw [ih, hget, List.reverse_cons, List.append_assoc, List.singleton_append,
      ← List.drop_eq_getElem_cons hlength]
  | case2 i taken hi =>
    have hlength : bytes.data.toList.length ≤ i := Nat.le_of_not_lt hi
    rw [List.drop_eq_nil_of_le hlength, List.append_nil]

/-- The list of the bytes of an array is the list that the array was made of. -/
theorem toList_eq_data_toList (bytes : ByteArray) : bytes.toList = bytes.data.toList :=
  toList_loop bytes 0 []

namespace Config

variable {files : LocalFiles} {document : String}

/-- The settings bring a document: as it is, in base 64 with blanks around it, or in a file that has
the bytes of the document. -/
inductive Brings (files : LocalFiles) (document : String) : Config → Prop where
  | plain {c : Config} : c.credentialsJson = some document → Brings files document c
  | encoded {c : Config} {before after : List Char} : c.credentialsJson = none →
      c.credentialsEncoded = some (String.ofList
        (before ++ (Text.Base64.characters document.toList ++ after))) →
      (∀ b ∈ before, Text.isBlank b = true) → (∀ b ∈ after, Text.isBlank b = true) →
      Brings files document c
  | file {c : Config} {path : String} : c.credentialsJson = none → c.credentialsEncoded = none →
      c.credentialsFile = some path → files path = .ok (.file document.toUTF8) →
      Brings files document c

/-- A document is decoded from its base 64, with any blanks around it. -/
theorem decodeDocument_characters (document : String) {before after : List Char}
    (hbefore : ∀ b ∈ before, Text.isBlank b = true)
    (hafter : ∀ b ∈ after, Text.isBlank b = true) :
    decodeDocument (String.ofList
      (before ++ (Text.Base64.characters document.toList ++ after))) = .ok document := by
  have htrim := Text.Base64.trimBy_append hbefore hafter
    (Text.Base64.isBlank_characters document.toList)
  rw [decodeDocument, Text.trim, String.toList_ofList, String.toList_ofList, htrim,
    Text.Base64.encode_characters, Text.Base64.decode_encode]
  dsimp only
  rw [Text.Utf8.decode_encode]
  exact congrArg Except.ok String.ofList_toList

/-- A file that has the bytes of a text is read as that text. -/
theorem readText_toUTF8 {path : String} (h : files path = .ok (.file document.toUTF8)) :
    files.readText path = .ok document := by
  have hbytes : document.toUTF8.toList = Text.Utf8.encode document.toList := by
    rw [toList_eq_data_toList, String.toUTF8_eq_toByteArray, ← String.utf8Encode_toList,
      List.utf8Encode, List.data_toByteArray]
    rfl
  have htext : (LocalNode.file document.toUTF8).text = .ok document := by
    rw [LocalNode.text, hbytes, Text.Utf8.decode_encode]
    exact congrArg Except.ok String.ofList_toList
  rw [LocalFiles.readText, h]
  exact htext

/-- **Every form leads to what the document is read as.** -/
theorem credentials_of_brings {c : Config} (h : Brings files document c) :
    c.credentials files = readDocument document := by
  cases h with
  | plain hjson => simp only [credentials, hjson]
  | encoded hjson hencoded hbefore hafter =>
    simp only [credentials, hjson, hencoded, decodeDocument_characters document hbefore hafter]
    rfl
  | file hjson hencoded hfile hcontent =>
    simp only [credentials, hjson, hencoded, hfile, readText_toUTF8 hcontent]

/-- What a document is read as: credentials, or an error of the settings. -/
theorem readDocument_cases (document : String) :
    (∃ c, readDocument document = .ok (.fixed c)) ∨
      ∃ message, readDocument document = .error (.config message) := by
  unfold readDocument
  cases Credentials.ofText document with
  | ok c => exact Or.inl ⟨c, rfl⟩
  | error f => exact Or.inr ⟨_, rfl⟩

/-- **The forms of credentials agree.** Two settings that bring the same document, each in one of
the three forms, have the same credentials or the same error of the settings, whatever the document
is. If it is the compact form of some credentials, these are what they have. -/
theorem credentials_of_forms {c c' : Config} (h : Brings files document c)
    (h' : Brings files document c') :
    c.credentials files = c'.credentials files ∧
      ((∃ fixed, c.credentials files = .ok (.fixed fixed)) ∨
        ∃ message, c.credentials files = .error (.config message)) ∧
      ∀ fixed : Credentials, document = fixed.toJson.toText →
        c.credentials files = .ok (.fixed fixed) := by
  have hread := credentials_of_brings h
  have hread' := credentials_of_brings h'
  refine ⟨hread.trans hread'.symm, ?_, ?_⟩
  · rw [hread]
    exact readDocument_cases document
  · rintro fixed rfl
    rw [hread, readDocument, Credentials.ofText_toJson]

/-- A quote, a backslash, and characters of two and four bytes: in base 64 with padding, between an
end of line and a wide blank, and in a file. -/
theorem credentials_of_forms_of_blanks :
    let fixed : Credentials := ⟨"AK\"1", "s\\é", some "😀"⟩
    let files : LocalFiles := fun _ => .ok (.file fixed.toJson.toText.toUTF8)
    let encoded : Config := { Config.standard with
      credentialsEncoded := some ("\n eyJhY2Nlc3Nfa2V5X2lkIjoiQUtcIjEiLCJzZWNyZXRfYWNjZXNzX2tleSI6" ++
        "InNcXMOpIiwic2Vzc2lvbl90b2tlbiI6IvCfmIAifQ==\u3000") }
    let file : Config := { Config.standard with credentialsFile := some "/creds" }
    encoded.credentials files = .ok (.fixed fixed) ∧
      file.credentials files = .ok (.fixed fixed) := by
  intro fixed files encoded file
  have hbefore : ∀ b ∈ ['\n', ' '], Text.isBlank b = true := List.all_eq_true.1 rfl
  have hafter : ∀ b ∈ ['\u3000'], Text.isBlank b = true := List.all_eq_true.1 rfl
  have htext : encoded.credentialsEncoded = some (String.ofList (['\n', ' '] ++
      (Text.Base64.characters fixed.toJson.toText.toList ++ ['\u3000']))) := by decide +kernel
  have hencoded : Brings files fixed.toJson.toText encoded := .encoded rfl htext hbefore hafter
  have hfile : Brings files fixed.toJson.toText file := .file rfl rfl rfl rfl
  obtain ⟨hagree, -, hfixed⟩ := credentials_of_forms hencoded hfile
  have hresult := hfixed fixed rfl
  exact ⟨hresult, hagree ▸ hresult⟩

end Config

end Depot
