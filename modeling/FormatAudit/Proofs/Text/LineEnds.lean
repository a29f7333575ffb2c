import FormatAudit.Proofs.Text.Utf8
import FormatAudit.Text.LineEnds

/-! Line ends written as CRLF are read as the line feeds that they stand for, in texts as in the bytes of texts. -/

namespace FormatAudit.Text

/-- The characters with a CRLF for each line feed. -/
def withCrlf (s : List Char) : List Char := s.flatMap fun c => if c = '\n' then ['\r', '\n'] else [c]

/-- The bytes with a CRLF for each line feed. -/
def crlfBytes (bytes : List UInt8) : List UInt8 := bytes.flatMap fun b => if b = 10 then [13, 10] else [b]

theorem withCrlf_cons (c : Char) (rest : List Char) :
    withCrlf (c :: rest) = if c = '\n' then '\r' :: '\n' :: withCrlf rest else c :: withCrlf rest := by
  rw [withCrlf, List.flatMap_cons]
  split <;> rfl

theorem crlfBytes_cons (b : UInt8) (rest : List UInt8) :
    crlfBytes (b :: rest) = if b = 10 then 13 :: 10 :: crlfBytes rest else b :: crlfBytes rest := by
  rw [crlfBytes, List.flatMap_cons]
  split <;> rfl

theorem joinLineEnds_withCrlf (s : List Char) : joinLineEnds (withCrlf s) = s := by
  have noFeed (s : List Char) : (withCrlf s).head? ≠ some '\n' := by
    cases s with
    | nil => simp [withCrlf]
    | cons c rest =>
        rw [withCrlf_cons]
        split <;> simp_all
  induction s with
  | nil => rfl
  | cons c rest ih =>
      rw [withCrlf_cons]
      split
      · rename_i feed
        rw [joinLineEnds, ih, feed]
      · rw [joinLineEnds_cons fun crlf => noFeed rest crlf.2, ih]

theorem joinLineEnds_of_plain {s : List Char} (plain : ¬['\r', '\n'] <:+: s) : joinLineEnds s = s := by
  induction s with
  | nil => rfl
  | cons c rest ih =>
      rw [joinLineEnds_cons, ih fun inside => plain (List.infix_cons inside)]
      rintro ⟨rfl, feed⟩
      obtain ⟨tail, rfl⟩ := List.head?_eq_some_iff.mp feed
      exact plain ⟨[], tail, rfl⟩

theorem joinLineEnds_eq_self_iff {s : List Char} : joinLineEnds s = s ↔ ¬['\r', '\n'] <:+: s := by
  refine ⟨?_, joinLineEnds_of_plain⟩
  fun_induction joinLineEnds s with
  | case1 s => intro same; cases same
  | case2 c s other ih =>
      intro same inside
      rcases List.infix_cons_iff.mp inside with ⟨rest, first⟩ | later
      · obtain ⟨rfl, rfl⟩ := List.cons.inj first
        exact other rest rfl rfl
      · exact ih (List.cons.inj same).2 later
  | case3 => simp

theorem head_joinLineEnds_iff {s : List Char} :
    (joinLineEnds s).head? = some '\n' ↔ s.head? = some '\n' ∨ ['\r', '\n'] <+: s := by
  rw [joinLineEnds.eq_def]
  split
  · simp
  · rename_i c rest other
    simp only [List.head?_cons, Option.some.injEq, List.cons_prefix_cons]
    constructor
    · exact .inl
    · rintro (feed | ⟨rfl, tail, rfl⟩)
      · exact feed
      · exact absurd rfl (other tail rfl)
  · simp

theorem crlf_infix_joinLineEnds_iff {s : List Char} : ['\r', '\n'] <:+: joinLineEnds s ↔
    ['\r', '\r', '\n'] <:+: s := by
  fun_induction joinLineEnds s with
  | case1 s ih => simp [List.infix_cons_iff, List.cons_prefix_cons, ih]
  | case2 c s other ih =>
      have feed : ['\n'] <+: joinLineEnds s ↔ s.head? = some '\n' ∨ ['\r', '\n'] <+: s := by
        rw [← head_joinLineEnds_iff]
        cases joinLineEnds s <;> simp [List.cons_prefix_cons, eq_comm]
      have apart : ¬('\r' = c ∧ s.head? = some '\n') := by
        rintro ⟨rfl, first⟩
        obtain ⟨tail, rfl⟩ := List.head?_eq_some_iff.mp first
        exact other tail rfl rfl
      rw [List.infix_cons_iff, List.infix_cons_iff, ih, List.cons_prefix_cons, List.cons_prefix_cons, feed, and_or_left]
      simp only [apart, false_or]
  | case3 => simp

theorem encode_of_ascii {c : Char} {b : UInt8} (member : b ∈ String.utf8EncodeChar c) (ascii : b.toNat < 128) :
    String.utf8EncodeChar c = [b] ∧ c.toNat = b.toNat := by
  simp only [String.utf8EncodeChar] at member ⊢
  rw [Char.toNat]
  split at member
  · rename_i small
    rw [if_pos small, List.mem_singleton.mp member, UInt8.toNat_ofNat']
    exact ⟨rfl, by omega⟩
  all_goals
    exfalso
    repeat' split at member
    all_goals
      simp only [List.mem_cons, List.not_mem_nil, or_false] at member
      rcases member with rfl | rfl | rfl | rfl <;> rw [UInt8.toNat_ofNat'] at ascii <;> omega

theorem tail_of_encode {c : Char} {b x : UInt8} {tail : List UInt8} (shape : String.utf8EncodeChar c = b :: tail)
    (member : x ∈ tail) : 128 ≤ x.toNat ∧ 128 ≤ b.toNat := by
  have single {y : UInt8} (inside : y ∈ b :: tail) (ascii : y.toNat < 128) : tail = [] := by
    have := (encode_of_ascii (shape ▸ inside) ascii).1
    exact (List.cons.inj (shape.symm.trans this)).2
  have tailed : tail ≠ [] := List.ne_nil_of_mem member
  exact ⟨Nat.le_of_not_lt fun ascii => tailed (single (by simp [member]) ascii),
    Nat.le_of_not_lt fun ascii => tailed (single (by simp) ascii)⟩

theorem crlfBytes_append_of_notMem {start : List UInt8} (absent : 10 ∉ start) (rest : List UInt8) :
    crlfBytes (start ++ rest) = start ++ crlfBytes rest := by
  induction start with
  | nil => rfl
  | cons b start ih =>
      simp only [List.mem_cons, not_or] at absent
      rw [List.cons_append, crlfBytes_cons, if_neg (Ne.symm absent.1), ih absent.2, List.cons_append]

theorem crlfBytes_encode (s : List Char) :
    crlfBytes (s.flatMap String.utf8EncodeChar) = (withCrlf s).flatMap String.utf8EncodeChar := by
  induction s with
  | nil => rfl
  | cons c rest ih =>
      rw [List.flatMap_cons, withCrlf_cons]
      split
      · rename_i feed
        rw [feed, List.flatMap_cons, List.flatMap_cons, ← ih]
        rfl
      · rename_i other
        have absent : 10 ∉ String.utf8EncodeChar c := fun member =>
          other (Char.toNat_inj.mp (encode_of_ascii member (by decide)).2)
        rw [crlfBytes_append_of_notMem absent, ih, List.flatMap_cons]

theorem exists_of_crlfBytes_eq_append {bytes start rest : List UInt8} (plain : ∀ b ∈ start, 128 ≤ b.toNat)
    (same : crlfBytes bytes = start ++ rest) : ∃ left, bytes = start ++ left ∧ crlfBytes left = rest := by
  induction start generalizing bytes with
  | nil => exact ⟨bytes, rfl, same⟩
  | cons b start ih =>
      cases bytes with
      | nil => cases same
      | cons other bytes =>
          rw [crlfBytes_cons, List.cons_append] at same
          split at same
          · have first : 13 = b := (List.cons.inj same).1
            exact absurd (plain b (by simp)) (first ▸ by decide)
          · obtain ⟨first, same⟩ := List.cons.inj same
            obtain ⟨left, shape, read⟩ := ih (fun x member => plain x (by simp [member])) same
            exact ⟨left, by rw [first, shape, List.cons_append], read⟩

theorem exists_text_of_crlfBytes {s : List Char} {bytes : List UInt8}
    (written : crlfBytes bytes = s.flatMap String.utf8EncodeChar ∨
      10 :: crlfBytes bytes = s.flatMap String.utf8EncodeChar) :
    ∃ t : List Char, bytes = t.flatMap String.utf8EncodeChar := by
  induction s generalizing bytes with
  | nil =>
      rcases written with whole | left
      · cases bytes with
        | nil => exact ⟨[], rfl⟩
        | cons b bytes =>
            rw [crlfBytes_cons] at whole
            split at whole <;> cases whole
      · cases left
  | cons c s ih =>
      obtain ⟨first, tail, shape, _⟩ := Utf8.head_encode c
      rw [List.flatMap_cons, shape, List.cons_append] at written
      have alone (ascii : first.toNat < 128) : tail = [] := by
        refine List.eq_nil_iff_forall_not_mem.mpr fun x member => ?_
        have := (tail_of_encode shape member).2
        omega
      rcases written with whole | left
      · cases bytes with
        | nil => exact ⟨[], rfl⟩
        | cons b bytes =>
            rw [crlfBytes_cons] at whole
            split at whole
            · rename_i feed
              obtain ⟨carriage, whole⟩ := List.cons.inj whole
              rw [alone (carriage ▸ by decide), List.nil_append] at whole
              obtain ⟨t, rest⟩ := ih (.inr whole)
              exact ⟨'\n' :: t, by rw [feed, rest]; rfl⟩
            · obtain ⟨same, whole⟩ := List.cons.inj whole
              obtain ⟨left, rest, read⟩ := exists_of_crlfBytes_eq_append
                (fun x member => (tail_of_encode shape member).1) whole
              obtain ⟨t, text⟩ := ih (.inl read)
              exact ⟨c :: t, by rw [List.flatMap_cons, shape, same, rest, text, List.cons_append]⟩
      · obtain ⟨feed, left⟩ := List.cons.inj left
        rw [alone (feed ▸ by decide), List.nil_append] at left
        exact ih (.inl left)

theorem plain_of_encode {s : List Char} (plain : ¬[13, 10] <:+: s.flatMap String.utf8EncodeChar) :
    ¬['\r', '\n'] <:+: s := by
  rintro ⟨before, after, rfl⟩
  refine plain ⟨before.flatMap String.utf8EncodeChar, after.flatMap String.utf8EncodeChar, ?_⟩
  rw [List.flatMap_append, List.flatMap_append]
  rfl

theorem normalized_crlfBytes {bytes : List UInt8} (plain : ¬[13, 10] <:+: bytes) :
    (normalizeLineEndings <$> ofUtf8 (crlfBytes bytes)).toOption =
      (normalizeLineEndings <$> ofUtf8 bytes).toOption := by
  cases read : ofUtf8 bytes with
  | ok s =>
      have shape : bytes = s.toList.flatMap String.utf8EncodeChar := by
        rw [← toUtf8_of_ofUtf8 read, toUtf8_eq_flatMap]
      have twin : ofUtf8 (crlfBytes bytes) = .ok (String.ofList (withCrlf s.toList)) := by
        rw [shape, crlfBytes_encode, ← ofUtf8_toUtf8, toUtf8_eq_flatMap, String.toList_ofList]
      rw [twin]
      simp only [normalizeLineEndings, Functor.map, Except.map, String.toList_ofList, joinLineEnds_withCrlf,
        joinLineEnds_of_plain (plain_of_encode (shape ▸ plain))]
  | error fault =>
      cases readToo : ofUtf8 (crlfBytes bytes) with
      | error other => rfl
      | ok s =>
          have shape := (toUtf8_of_ofUtf8 readToo).symm
          rw [toUtf8_eq_flatMap] at shape
          obtain ⟨t, text⟩ := exists_text_of_crlfBytes (.inl shape)
          have := ofUtf8_toUtf8 (String.ofList t)
          rw [toUtf8_eq_flatMap, String.toList_ofList, ← text, read] at this
          cases this

end FormatAudit.Text
