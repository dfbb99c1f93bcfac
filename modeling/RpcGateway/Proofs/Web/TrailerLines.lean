import RpcGateway.Proofs.Web.Trailers
/-!
# Trailer blocks stay whole

No message can corrupt the block that carries it: the block is printable ASCII and line breaks, splits into
the line of the code, the line of the message and the blank line, and ends only where it was ended. So the
code that is read does not depend on the message.
-/
namespace RpcGateway.Web.Trailers

/-- Whether bytes are printable ASCII and complete line breaks, and nothing else. -/
def isPlain : Bytes → Bool
  | [] => true
  | 0x0D :: 0x0A :: rest => isPlain rest
  | b :: rest => 0x20 ≤ b && b < 0x7F && isPlain rest

private theorem isPlain_append {bs rest : Bytes} (hbs : isPlain bs = true) (hrest : isPlain rest = true) :
    isPlain (bs ++ rest) = true := by
  fun_induction isPlain bs with
  | case1 => exact hrest
  | case2 more ih => exact ih hbs
  | case3 b more hbreak ih =>
    simp only [Bool.and_eq_true, decide_eq_true_eq] at hbs
    have hnobreak : ∀ tail, b = 0x0D → more ++ rest = 0x0A :: tail → False := by
      rintro _ rfl -
      exact absurd hbs.1.1 (by decide)
    rw [List.cons_append, isPlain, ih hbs.2]
    · simp [hbs.1]
    · exact hnobreak

private theorem isPlain_of_printable {bs : Bytes} (h : ∀ b ∈ bs, 0x20 ≤ b ∧ b < 0x7F) :
    isPlain bs = true := by
  induction bs with
  | nil => rfl
  | cons b rest ih =>
    rw [List.forall_mem_cons] at h
    have hbyte : isPlain [b] = true := by
      rw [isPlain]
      · simp [h.1, isPlain]
      · simp
    exact isPlain_append hbyte (ih h.2)

private theorem isPlain_encode (bs : Bytes) : isPlain (Percent.encode bs) = true := by
  apply isPlain_of_printable
  intro x hx
  rw [Percent.encode_eq_flatMap] at hx
  obtain ⟨b, -, hx⟩ := List.mem_flatMap.mp hx
  rcases Percent.mem_encode_byte hx with ⟨low, high⟩ | ⟨rfl, -⟩
  · exact ⟨UInt8.le_of_lt low, high⟩
  · decide

private theorem isPlain_block (s : Status) : isPlain (block s) = true := by
  have hhead : isPlain (bytesOf s!"{codeName}: {s.code.number}\r\n{messageName}: ") = true := by
    cases s.code <;> decide +kernel
  have hend : isPlain (bytesOf "\r\n\r\n") = true := by decide
  exact isPlain_append (isPlain_append hhead (isPlain_encode _)) hend

private theorem lines_ne_nil (cs : List Char) : lines cs ≠ [] := by
  fun_cases lines cs <;> simp

private theorem eq_nil_of_lines {cs : List Char} (h : lines cs = [[]]) : cs = [] := by
  fun_cases lines cs with
  | case1 => rfl
  | case2 rest =>
    rw [lines] at h
    exact absurd (List.cons.inj h).2 (lines_ne_nil rest)
  | case3 c rest hbreak hnil => exact absurd hnil (lines_ne_nil rest)
  | case4 c rest hbreak line more hlines =>
    rw [lines, hlines] at h
    · simp at h
    · exact hbreak

private theorem lines_append_break (cs rest : List Char) :
    lines (cs ++ '\r' :: '\n' :: rest) = lines cs ++ lines rest := by
  fun_induction lines cs with
  | case1 => rw [List.nil_append, lines, List.singleton_append]
  | case2 more ih => rw [List.cons_append, List.cons_append, lines, ih, List.cons_append]
  | case3 c more hbreak hnil ih => exact absurd hnil (lines_ne_nil more)
  | case4 c more hbreak line others hlines ih =>
    have hnobreak : ∀ tail, c = '\r' → more ++ '\r' :: '\n' :: rest = '\n' :: tail → False := by
      intro tail hc heq
      cases more with
      | nil => simp at heq
      | cons d more => exact hbreak more hc (by rw [(List.cons.inj heq).1])
    rw [List.cons_append, lines, ih, hlines, List.cons_append, List.cons_append]
    exact hnobreak

/-- The block of a status is whole: it is text in lines, these are the line of the code, the line of the
message and the blank line, nothing follows a blank line, the value of the message is the message, and the
code is read from it. -/
structure IsIntact (s : Status) (bs : Bytes) : Prop where
  plain : isPlain bs = true
  lines_eq : lines (Utf8.lossy bs) = [codeLine s.code, messageLine s.message, [], []]
  ends_once : ∀ before after, Utf8.lossy bs = before ++ "\r\n\r\n".toList ++ after → after = []
  escaped : Percent.decode (Utf8.encode (s.message.toList.flatMap Percent.escape)) = bytesOf s.message
  code_eq : (read bs).code = s.code

private theorem block_ends_once (s : Status) {before after : List Char}
    (h : Utf8.lossy (block s) = before ++ "\r\n\r\n".toList ++ after) : after = [] := by
  have hsplit : lines before ++ [] :: lines after =
      [codeLine s.code, messageLine s.message, [], []] := by
    have hbreaks : before ++ "\r\n\r\n".toList ++ after =
        before ++ '\r' :: '\n' :: ([] ++ '\r' :: '\n' :: after) := by simp
    rw [← lines_block, h, hbreaks, lines_append_break, lines_append_break, lines,
      List.singleton_append]
  have hmessage : messageLine s.message ≠ [] := by simp [messageLine, lineOf]
  -- The blank line is neither of the two lines, and something follows it: only one place is left.
  rcases hbefore : lines before with _ | ⟨first, _ | ⟨second, _ | ⟨third, more⟩⟩⟩ <;>
    rw [hbefore] at hsplit
  · exact absurd hbefore (lines_ne_nil before)
  · exact absurd (List.cons.inj (List.cons.inj hsplit).2).1.symm hmessage
  · have hafter := (List.cons.inj (List.cons.inj (List.cons.inj hsplit).2).2).2
    exact eq_nil_of_lines hafter
  · have hrest : more ++ [] :: lines after = [[]] :=
      (List.cons.inj (List.cons.inj (List.cons.inj hsplit).2).2).2
    have hlength := congrArg List.length hrest
    have hafter := List.length_pos_iff.mpr (lines_ne_nil after)
    rw [List.length_append, List.length_cons, List.length_singleton] at hlength
    omega

/-- No message corrupts its block, and all messages leave the same code to be read. -/
theorem block_isIntact (code : StatusCode) (message : String) :
    IsIntact ⟨code, message⟩ (block ⟨code, message⟩) ∧
      ∀ other, (read (block ⟨code, other⟩)).code = (read (block ⟨code, message⟩)).code := by
  refine ⟨⟨isPlain_block _, lines_block _, fun _ _ => block_ends_once _, ?_, ?_⟩, ?_⟩
  · rw [Percent.encode_escape, Percent.decode_encode, bytesOf]
  · rw [read_block]
  · intro other
    rw [read_block, read_block]

end RpcGateway.Web.Trailers
