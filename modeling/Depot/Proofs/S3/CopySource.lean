import Depot.Proofs.S3.Uploads
import Depot.Proofs.Text.Percent

/-!
# The source of a copy

A copy names its source in one text: the bucket as it is, a slash, and the key with all encoded that
might mean something else. A bucket has no slash and no percent sign, so the text is read back as
that bucket and that key, whatever is in the key (`decode?_sourceText`, `split_source`), and no other
source is written as the same text (`sourceText_inj`). The main statement is `copy_names_source`.
-/

set_option autoImplicit false

namespace Depot.S3

open Text.Percent (decode? encode Written)

variable {bucket bucket' key key' : String}

/-- The name of a bucket that can be told apart from what follows it, with nothing in it that would
be decoded. -/
structure PlainBucket (bucket : String) : Prop where
  slash : '/' ∉ bucket.toList
  percent : '%' ∉ bucket.toList

/-- Whether a text is one that every header can carry: all its characters are printable ones of
ASCII. -/
def isPrintable (text : String) : Bool := text.toList.all fun c => ' ' ≤ c && c ≤ '~'

/-- Requests are unsigned, or signed with credentials that are known and that headers can carry. -/
def Access.Signs (a : Access) : Prop :=
  match a.credentials with
  | .anonymous => True
  | .fixed c => isPrintable a.region ∧ isPrintable c.accessKeyId ∧
      ∀ token, c.sessionToken = some token → isPrintable token
  | .surroundings => False

/-! ## The text of a source -/

/-- The text is read back as bucket and key with a slash between them. -/
theorem decode?_sourceText (h : PlainBucket bucket) (key : String) :
    decode? (Request.sourceText bucket key) = some (bucket ++ "/" ++ key) := by
  apply Text.Percent.decode?_append_encode
  rw [String.toList_append]
  intro hmem
  rcases List.mem_append.1 hmem with hbucket | hslash
  · exact h.percent hbucket
  · exact absurd hslash (by decide)

/-- Of a bucket, a slash and some text, the first slash parts the bucket and the text. -/
theorem split_source (h : PlainBucket bucket) (text : String) :
    (bucket ++ "/" ++ text).toList.takeWhile (· ≠ '/') = bucket.toList ∧
      (bucket ++ "/" ++ text).toList.dropWhile (· ≠ '/') = '/' :: text.toList := by
  have hpos : ∀ c ∈ bucket.toList, decide (c ≠ '/') = true := by
    intro c hc
    apply decide_eq_true
    rintro rfl
    exact h.slash hc
  have hlist : (bucket ++ "/" ++ text).toList = bucket.toList ++ '/' :: text.toList := by
    simp
  rw [hlist, List.takeWhile_append_of_pos hpos, List.dropWhile_append_of_pos hpos]
  constructor
  · exact List.append_nil _
  · rfl

/-- **No two sources are written alike.** -/
theorem sourceText_inj (h : PlainBucket bucket) (h' : PlainBucket bucket')
    (heq : Request.sourceText bucket key = Request.sourceText bucket' key') :
    bucket = bucket' ∧ key = key' := by
  have hread := decode?_sourceText h key
  rw [heq, decode?_sourceText h' key'] at hread
  have htext := Option.some.inj hread
  obtain ⟨htake, hdrop⟩ := split_source h key
  obtain ⟨htake', hdrop'⟩ := split_source h' key'
  rw [htext] at htake' hdrop'
  constructor
  · apply String.toList_inj.1
    rw [← htake, htake']
  · apply String.toList_inj.1
    rw [hdrop] at hdrop'
    exact (List.cons.inj hdrop').2

/-! ## The request of a copy -/

section Copy

variable {State : Type}

/-- A copy sends its one request, unless that cannot be sent. -/
theorem sentUntil_copy (network : Network State) (access : Access) (c : Client)
    (sourceBucket sourceKey bucket key : String) (w : World State) :
    w.sentUntil ((backend network access).copy c sourceBucket sourceKey bucket key w).world =
      if (Request.copy access.signature sourceBucket sourceKey bucket key).isSendable then
        [Request.copy access.signature sourceBucket sourceKey bucket key]
      else [] := by
  unfold backend telling
  dsimp only
  exact sentUntil_exchange

/-- **A copy names its source.** Whatever object is to be copied, out of a bucket whose name has no
slash and no percent sign, and wherever to: all requests that the call of the store sends carry the
same text for the source. There is one request if the target can be addressed and headers can carry
the name of the bucket and the signature. Decoded, and parted at its first slash, the text is that
bucket and that key; behind its first slash there are only characters without special meaning and
escapes; and the text of any other source is another one. -/
theorem copy_names_source (network : Network State) (access : Access) (c : Client)
    (w : World State) {sourceBucket : String} (hsource : PlainBucket sourceBucket)
    (sourceKey bucket key : String) :
    let sent := w.sentUntil
      ((backend network access).copy c sourceBucket sourceKey bucket key w).world
    let text := Request.sourceText sourceBucket sourceKey
    (∀ r ∈ sent, r.copySource = some text) ∧
    (access.Signs → isPrintable sourceBucket → (Text.trim bucket).isEmpty = false → key ≠ "" →
      sent.length = 1) ∧
    (∃ decoded, decode? text = some decoded ∧
      decoded.toList.takeWhile (· ≠ '/') = sourceBucket.toList ∧
      decoded.toList.dropWhile (· ≠ '/') = '/' :: sourceKey.toList) ∧
    (∃ written, text.toList.dropWhile (· ≠ '/') = '/' :: written ∧ Written written) ∧
    ∀ otherBucket otherKey, PlainBucket otherBucket →
      Request.sourceText otherBucket otherKey = text →
      otherBucket = sourceBucket ∧ otherKey = sourceKey := by
  intro sent text
  have hsent := sentUntil_copy network access c sourceBucket sourceKey bucket key w
  refine ⟨?_, ?_, ?_, ?_, ?_⟩
  · intro r hr
    rw [show sent = _ from hsent] at hr
    split at hr
    · rw [List.mem_singleton.1 hr]
      rfl
    · exact absurd hr List.not_mem_nil
  · intro _ _ hbucket hkey
    have hsendable :
        (Request.copy access.signature sourceBucket sourceKey bucket key).isSendable = true := by
      simp [Request.isSendable, Request.copy, Request.plain, hbucket, hkey]
    rw [show sent = _ from hsent, if_pos hsendable]
    rfl
  · exact ⟨_, decode?_sourceText hsource sourceKey, split_source hsource sourceKey⟩
  · refine ⟨(encode sourceKey).toList, ?_, Text.Percent.written_encode sourceKey⟩
    exact (split_source hsource (encode sourceKey)).2
  · intro otherBucket otherKey hother heq
    exact sourceText_inj hother hsource heq

/-- A key with a slash, with an escape in it that stands for itself, and with characters of one, two
and four bytes. -/
theorem copy_names_source_of_escape :
    let key := "a b/%2F+?#é😀"
    let w : World Unit := .start ()
    let sent := w.sentUntil
      ((backend Network.unreachable .unsigned).copy 1 "src" key "backups" "od/k" w).world
    PlainBucket "src" ∧ sent.length = 1 ∧
    sent.map (·.copySource) = [some "src/a%20b%2F%252F%2B%3F%23%C3%A9%F0%9F%98%80"] ∧
    ∃ text decoded, (∀ r ∈ sent, r.copySource = some text) ∧ decode? text = some decoded ∧
      decoded.toList.takeWhile (· ≠ '/') = "src".toList ∧
      decoded.toList.dropWhile (· ≠ '/') = '/' :: key.toList := by
  intro key w sent
  have hsource : PlainBucket "src" := ⟨by decide, by decide⟩
  obtain ⟨hsent, hone, ⟨decoded, hdecoded, hsplit⟩, -, -⟩ :=
    copy_names_source Network.unreachable .unsigned 1 w hsource key "backups" "od/k"
  exact ⟨hsource, hone trivial (by decide) (by decide) (by decide), by decide +kernel, _, decoded,
    hsent, hdecoded, hsplit⟩

end Copy

end Depot.S3
