import Vetting.Digest.Canonical

/-!
Contract: the tokens that attempts at a step give to their jobs.

Owns:
- a token is never empty, so a job that has one can be told from a job that has none;
- the text whose digest a token is.

Does not own: that different attempts have different tokens.  That rests on the digest.
-/

namespace Vetting

namespace Text.Hexadecimal

theorem padded_ne_nil (width number : Nat) : padded (width + 1) number ≠ [] := by
  unfold padded
  simp

private theorem loop_ne_nil (bytes : ByteArray) (place : Nat) {read : List UInt8}
    (some : read ≠ []) : ByteArray.toList.loop bytes place read ≠ [] := by
  fun_induction ByteArray.toList.loop bytes place read with
  | case1 place read inside inductionHypothesis => exact inductionHypothesis (by simp)
  | case2 place read outside => simpa using some

theorem ofBytes_ne_empty {bytes : ByteArray} (some : 0 < bytes.size) : ofBytes bytes ≠ "" := by
  have isRead : bytes.toList ≠ [] := by
    rw [ByteArray.toList, ByteArray.toList.loop, if_pos some]
    exact loop_ne_nil bytes _ (by simp)
  intro isEmpty
  have noDigits := List.flatMap_eq_nil_iff.mp (String.ofList_eq_empty_iff.mp isEmpty)
  obtain ⟨byte, member⟩ := List.exists_mem_of_ne_nil _ isRead
  exact padded_ne_nil _ _ (noDigits byte member)

end Text.Hexadecimal

namespace Digest

private theorem flatMap_words_pos {bytesOf : UInt32 → List UInt8}
    (some : ∀ word, bytesOf word ≠ []) (words : Vector UInt32 8) :
    0 < (words.toList.flatMap bytesOf).length := by
  have first : words[0] ∈ words.toList := by simp
  refine List.length_pos_iff.mpr fun isEmpty => ?_
  exact some _ (List.flatMap_eq_nil_iff.mp isEmpty _ first)

/-- No token is empty. -/
theorem attemptKey_ne_empty (stepRunId : Uuid) (attempt : Nat) :
    attemptKey stepRunId attempt ≠ "" := by
  apply Text.Hexadecimal.ofBytes_ne_empty
  rw [ByteArray.size, List.size_toArray]
  exact flatMap_words_pos (fun _ => List.cons_ne_nil _ _) _

private theorem stringText_eq (text : String) :
    Json.stringText text = "\"" ++ String.join (text.toList.map Json.escaped) ++ "\"" := by
  rw [Json.stringText, String.foldl_eq_foldl_toList, String.join, List.foldl_map]

theorem settled_attemptValue (stepRunId : Uuid) (attempt : Nat) :
    (attemptValue stepRunId attempt).settled = attemptValue stepRunId attempt := by
  have inOrder : ¬ "step_run_id" < "attempt" := by decide
  simp [attemptValue, Json.Value.settled, Json.Value.settledEntries, Json.Value.natural,
    Uuid.toValue, Json.Value.ofEntries, Dictionary.ofEntries, Dictionary.insert, inOrder]

/-- A token is the digest of an object of the attempt and the step run. -/
theorem attemptKey_eq (stepRunId : Uuid) (attempt : Nat) :
    attemptKey stepRunId attempt = ofText ("\x7b" ++
      ("\"attempt\"" ++ ":" ++ toString (attempt : Int) ++ "," ++
        ("\"step_run_id\"" ++ ":" ++
          ("\"" ++ String.join (stepRunId.text.toList.map Json.escaped) ++ "\""))) ++ "\x7d") := by
  have isAttempt : Json.stringText "attempt" = "\"attempt\"" := by
    rw [stringText_eq]
    decide
  have isStepRun : Json.stringText "step_run_id" = "\"step_run_id\"" := by
    rw [stringText_eq]
    decide
  rw [attemptKey, ofValue, canonical, settled_attemptValue, attemptValue, Json.Value.compact,
    Json.Value.compactEntries, Json.Value.compactEntries, isAttempt, isStepRun, Uuid.toValue,
    Json.Value.natural, Json.Value.compact, Json.Value.compact, stringText_eq, Json.Number.text]
  intro no
  cases no

end Digest

end Vetting
