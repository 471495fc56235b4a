import CompositionGen.Proofs.FieldPath.Scanning
import CompositionGen.Proofs.Text.Decoding

/-!
# Where reading stops

Reading passes step after step and stops at the first place where no path goes on as the text does.
Whatever else stood behind what has been passed would be read from that place on, so the text before
the place is the beginning of a path, and a text that shares with this one what is wrong there is
refused with the same error.
-/

namespace CompositionGen

/-- The offset that an error names. -/
def ParseError.offset? : ParseError → Option Nat
  | .empty => none
  | .emptyField k | .emptyBracket k | .unterminated k | .unexpected _ k => some k

/-- The byte at the offset decides that there is an error, whatever follows it. -/
def ParseError.IsLocal : ParseError → Prop
  | .emptyField _ => True
  | .unexpected c _ => c ≠ '['
  | _ => False

namespace FieldPath

open Utf8 (ascii encode encodeAll)

/-! ## Passing steps -/

/-- A text at which a step ends and no dot follows. -/
def EndsStep (cs : List Char) : Prop := ∀ c ∈ cs.head?, c = '[' ∨ c = ']'

theorem EndsStep.endsName {cs : List Char} (h : EndsStep cs) : EndsName cs := by
  intro c hc
  rcases h c hc with rfl | rfl
  · rfl
  · rfl

theorem EndsStep.head?_ne {cs : List Char} (h : EndsStep cs) : cs.head? ≠ some '.' := by
  intro hd
  rcases h '.' hd with hc | hc
  · cases hc
  · cases hc

theorem endsStep_of_endsName {cs : List Char} (h : EndsName cs) (hd : cs.head? ≠ some '.') :
    EndsStep cs := by
  cases cs with
  | nil => exact fun _ hc => nomatch hc
  | cons c rest =>
    rintro _ ⟨⟩
    rcases endsName_cons.mp h with rfl | hc
    · exact absurd rfl hd
    · exact hc

theorem endsStep_append {a b : List Char} (h : EndsStep a) (hb : a = [] → EndsStep b) :
    EndsStep (a ++ b) := by
  cases a with
  | nil => exact hb rfl
  | cons c a => exact h

/-- A text that begins with the same byte as an ASCII character begins with that character. -/
theorem exists_cons_of_head? {c : Char} {rest ds : List Char} (hc : c.toNat < 128)
    (hb : (encodeAll ds).head? = (encodeAll (c :: rest)).head?) : ∃ more, ds = c :: more := by
  rw [Utf8.encodeAll_cons_ascii hc, List.head?_cons, head?_encodeAll_eq_ascii hc] at hb
  exact List.head?_eq_some_iff.mp hb

/-- Where two texts begin with the same byte, both end a step or neither does. -/
theorem EndsStep.of_head? {cs ds : List Char} (h : EndsStep cs)
    (hb : (encodeAll ds).head? = (encodeAll cs).head?) : EndsStep ds := by
  cases cs with
  | nil =>
    obtain rfl := Utf8.encodeAll_eq_nil_iff.mp (List.head?_eq_none_iff.mp hb)
    exact h
  | cons c rest =>
    have hc : c.toNat < 128 := by
      rcases h c rfl with rfl | rfl <;> decide
    obtain ⟨more, rfl⟩ := exists_cons_of_head? hc hb
    exact h

section Steps

variable {offset : Nat} {afterDot : Bool} {name inner rest : List Char} {segment : Segment}

theorem byteLength_dotted (cs : List Char) : byteLength (cs ++ ['.']) = byteLength cs + 1 := by
  rw [byteLength_append, byteLength_ascii (by decide)]

theorem byteLength_enclosed (inner : List Char) :
    byteLength ('[' :: (inner ++ [']'])) = byteLength inner + 2 := by
  have h := byteLength_bracket [] inner
  rwa [List.nil_append, byteLength, Nat.zero_add] at h

theorem pass_name (hne : name ≠ []) (hname : ∀ c ∈ name, Segment.isNameChar c = true)
    (hrest : EndsStep rest) : parseFrom offset afterDot (name ++ rest) =
      (parseFrom (offset + byteLength name) false rest).map (.field (String.ofList name) :: ·) := by
  rw [parseFrom_name hne hname hrest.endsName, parseOn_of_head?_ne hrest.head?_ne]

theorem pass_dottedName (hne : name ≠ []) (hname : ∀ c ∈ name, Segment.isNameChar c = true) :
    parseFrom offset afterDot (name ++ ['.'] ++ rest) =
      (parseFrom (offset + byteLength (name ++ ['.'])) true rest).map
        (.field (String.ofList name) :: ·) := by
  rw [List.append_assoc, List.singleton_append,
    parseFrom_name hne hname (endsName_cons.mpr (.inl rfl)), parseOn_dot, byteLength_dotted,
    Nat.add_assoc]

theorem pass_bracket (hi : ']' ∉ inner) (hs : bracketSegment offset inner = .ok segment)
    (hrest : EndsStep rest) : parseFrom offset false ('[' :: (inner ++ [']']) ++ rest) =
      (parseFrom (offset + byteLength ('[' :: (inner ++ [']']))) false rest).map
        (segment :: ·) := by
  rw [byteLength_enclosed, List.cons_append, List.append_assoc, List.singleton_append,
    ← Nat.add_assoc]
  by_cases hclosing : rest.head? = some ']'
  · -- Behind a bracket and at the beginning of a step, a closing bracket is the same error.
    obtain ⟨more, rfl⟩ := List.head?_eq_some_iff.mp hclosing
    rw [parseFrom_bracket_unexpected hi (by decide) (by decide), hs, parseFrom_closing]
    rfl
  · have hopening : ∀ c ∈ rest.head?, c = '.' ∨ c = '[' := by
      intro c hc
      rcases hrest c hc with rfl | rfl
      · exact .inr rfl
      · exact absurd hc hclosing
    rw [parseFrom_bracket hi hopening, hs, ← parseOn_of_head?_ne hrest.head?_ne]
    rfl

theorem pass_dottedBracket (hi : ']' ∉ inner) (hs : bracketSegment offset inner = .ok segment) :
    parseFrom offset false ('[' :: (inner ++ [']']) ++ ['.'] ++ rest) =
      (parseFrom (offset + byteLength ('[' :: (inner ++ [']']) ++ ['.'])) true rest).map
        (segment :: ·) := by
  have hcut : '[' :: (inner ++ [']']) ++ ['.'] ++ rest = '[' :: (inner ++ ']' :: '.' :: rest) := by
    simp
  have hdot : ∀ c ∈ ('.' :: rest).head?, c = '.' ∨ c = '[' := by
    rintro _ ⟨⟩
    exact .inl rfl
  rw [byteLength_dotted, byteLength_enclosed, hcut, parseFrom_bracket hi hdot, hs,
    ← Nat.add_assoc, ← Nat.add_assoc]
  rfl

end Steps

/-- Reading passes a text, and then reads whatever follows it from there on. A step that has no dot
behind it has to end there. -/
structure Passes (offset : Nat) (afterDot : Bool) (passed : List Char) (afterDot' : Bool) :
    Prop where
  reads : ∃ segments, ∀ rest, (passed ≠ [] → afterDot' = false → EndsStep rest) →
    parseFrom offset afterDot (passed ++ rest) =
      (parseFrom (offset + byteLength passed) afterDot' rest).map (segments ++ ·)
  stays : passed = [] → afterDot' = afterDot
  dotted : passed ≠ [] → afterDot' = true → passed.getLast? = some '.'

section Places

variable {offset : Nat} {d d' d'' : Bool} {first later cs front rest rest' : List Char}
  {segment : Segment} {e : ParseError}

theorem Passes.nothing (offset : Nat) (d : Bool) : Passes offset d [] d where
  reads := by
    refine ⟨[], fun rest _ => ?_⟩
    show parseFrom offset d rest = (parseFrom (offset + 0) d rest).map id
    rw [Nat.add_zero]
    cases parseFrom offset d rest with
    | error e => rfl
    | ok segments => rfl
  stays := fun _ => rfl
  dotted := fun h => absurd rfl h

theorem Passes.step (hfirst : first ≠ []) (hread : ∀ rest, (d' = false → EndsStep rest) →
      parseFrom offset d (first ++ rest) =
        (parseFrom (offset + byteLength first) d' rest).map (segment :: ·))
    (hdot : d' = true → first.getLast? = some '.') (hlater : d' = false → EndsStep later)
    (h : Passes (offset + byteLength first) d' later d'') :
    Passes offset d (first ++ later) d'' where
  reads := by
    obtain ⟨segments, hreads⟩ := h.reads
    refine ⟨segment :: segments, fun rest hrest => ?_⟩
    have hrest' : d'' = false → EndsStep rest := hrest (List.append_ne_nil_of_left_ne_nil hfirst _)
    rw [List.append_assoc, hread, hreads rest fun _ => hrest', byteLength_append, Nat.add_assoc]
    · cases parseFrom (offset + (byteLength first + byteLength later)) d'' rest with
      | error e => rfl
      | ok more => rfl
    · intro hd
      exact endsStep_append (hlater hd) fun hnil => hrest' ((h.stays hnil).trans hd)
  stays := fun hnil => absurd (List.append_eq_nil_iff.mp hnil).1 hfirst
  dotted := by
    intro _ hd
    by_cases hnil : later = []
    · subst hnil
      rw [List.append_nil]
      exact hdot ((h.stays rfl).symm.trans hd)
    · rw [List.getLast?_append_of_ne_nil _ hnil]
      exact h.dotted hnil hd

/-! ## What is wrong at a place -/

/-- What reading stops at: `rest` begins with what cannot stand behind `front`, which is empty or a
bracket. -/
inductive Fault (offset : Nat) : Bool → List Char → List Char → ParseError → Prop where
  | ends : Fault offset true [] [] (.emptyField offset)
  | dot {afterDot : Bool} (more : List Char) :
    Fault offset afterDot [] ('.' :: more) (.emptyField offset)
  | opening (more : List Char) : Fault offset true [] ('[' :: more) (.emptyField offset)
  | closing {afterDot : Bool} (more : List Char) :
    Fault offset afterDot [] (']' :: more) (.unexpected ']' offset)
  | unterminated {more : List Char} : ']' ∉ more →
    Fault offset false [] ('[' :: more) (.unterminated offset)
  | emptyBracket (more : List Char) :
    Fault offset false [] ('[' :: ']' :: more) (.emptyBracket offset)
  | number {digits : List Char} (more : List Char) : digits ≠ [] → ']' ∉ digits →
    digits.all Decimal.isDigit = true → Decimal.wordBound ≤ Decimal.value digits →
    Fault offset false [] ('[' :: (digits ++ ']' :: more)) (.unexpected '[' offset)
  | behind {inner : List Char} {segment : Segment} {c : Char} (more : List Char) : ']' ∉ inner →
    bracketSegment offset inner = .ok segment → c ≠ '.' → c ≠ '[' →
    Fault offset false ('[' :: (inner ++ [']'])) (c :: more)
      (.unexpected (leadByte c) (offset + byteLength ('[' :: (inner ++ [']']))))

theorem Fault.parseFrom_eq (h : Fault offset d front rest e) :
    parseFrom offset d (front ++ rest) = .error e := by
  cases h with
  | ends => rw [List.nil_append, parseFrom_nil, if_pos rfl]
  | dot more => exact parseFrom_dot more
  | opening more => exact parseFrom_opening_afterDot more
  | closing more => exact parseFrom_closing more
  | unterminated hmore => exact parseFrom_unterminated hmore
  | emptyBracket more => exact parseFrom_opening List.not_mem_nil more
  | number more hne hclosing hdigits hbound =>
    rw [List.nil_append, parseFrom_opening hclosing, bracketSegment,
      if_neg (mt List.isEmpty_iff.mp hne), if_pos hdigits, if_neg (Nat.not_lt.mpr hbound)]
  | behind more hi hs hdot hopening =>
    rw [List.cons_append, List.append_assoc, List.singleton_append,
      parseFrom_bracket_unexpected hi hdot hopening, hs, byteLength_enclosed, Nat.add_assoc]
    rfl

theorem Fault.offset_eq (h : Fault offset d front rest e) :
    e.offset? = some (offset + byteLength front) := by
  cases h <;> rfl

/-- Behind what a fault leaves standing there may be a bracket, or behind a dot a name. -/
theorem Fault.exists_more (h : Fault offset d front rest e) : ∃ more, more ≠ [] ∧
    (d = false → EndsStep (front ++ more)) ∧
    ∃ segments, parseFrom offset d (front ++ more) = .ok segments := by
  have hends (more : List Char) : EndsStep ('[' :: more) := by
    rintro _ ⟨⟩
    exact .inl rfl
  have hbracket (offset : Nat) : parseFrom offset false ['[', '0', ']'] = .ok [.index 0] :=
    parseFrom_opening (show ']' ∉ ['0'] by decide) []
  by_cases hfront : front = []
  · subst hfront
    cases d with
    | false => exact ⟨['[', '0', ']'], by decide, fun _ => hends _, _, hbracket offset⟩
    | true =>
      have hname : parseFrom offset true ['x'] =
          (parseFrom (offset + byteLength ['x']) false []).map
            (.field (String.ofList ['x']) :: ·) :=
        pass_name (List.cons_ne_nil _ _) (List.forall_mem_singleton.mpr rfl) fun _ hc => nomatch hc
      rw [parseFrom_nil] at hname
      exact ⟨['x'], by decide, nofun, _, hname⟩
  · cases h with
    | behind more hi hs =>
      refine ⟨['[', '0', ']'], by decide, fun _ => hends _, ?_⟩
      rw [pass_bracket hi hs (hends _), hbracket]
      exact ⟨_, rfl⟩
    | _ => exact absurd rfl hfront

/-- A fault that the next byte decides is a fault wherever that byte follows. -/
theorem Fault.of_head? (h : Fault offset d front rest e) (hlocal : e.IsLocal)
    (hb : (encodeAll rest').head? = (encodeAll rest).head?) : Fault offset d front rest' e := by
  cases h with
  | ends =>
    obtain rfl := Utf8.encodeAll_eq_nil_iff.mp (List.head?_eq_none_iff.mp hb)
    exact .ends
  | dot more =>
    obtain ⟨more', rfl⟩ := exists_cons_of_head? (by decide) hb
    exact .dot more'
  | opening more =>
    obtain ⟨more', rfl⟩ := exists_cons_of_head? (by decide) hb
    exact .opening more'
  | closing more =>
    obtain ⟨more', rfl⟩ := exists_cons_of_head? (by decide) hb
    exact .closing more'
  | unterminated _ => cases hlocal
  | emptyBracket _ => cases hlocal
  | number _ _ _ _ _ => exact absurd rfl hlocal
  | @behind _ _ c more hi hs hdot hopening =>
    obtain ⟨lead, tail, hlead, -, -⟩ := Utf8.utf8EncodeChar_eq_cons c
    cases rest' with
    | nil => simp [hlead] at hb
    | cons c' more' =>
      obtain ⟨lead', tail', hlead', -, -⟩ := Utf8.utf8EncodeChar_eq_cons c'
      have hne {x : Char} (hx : x.toNat < 128) (hc : c ≠ x) : c' ≠ x := by
        rintro rfl
        obtain ⟨_, heq⟩ := exists_cons_of_head? hx hb.symm
        exact hc (List.cons.inj heq).1
      have heq : leadByte c' = leadByte c := by
        rw [Utf8.encodeAll_cons, Utf8.encodeAll_cons, hlead, hlead'] at hb
        rw [leadByte, leadByte, hlead, hlead', Option.some.inj hb]
      rw [← heq]
      exact .behind more' hi hs (hne (by decide) hdot) (hne (by decide) hopening)

theorem fault_of_bracketSegment {inner : List Char} (hi : ']' ∉ inner)
    (h : bracketSegment offset inner = .error e) (after : List Char) :
    Fault offset false [] ('[' :: (inner ++ ']' :: after)) e := by
  unfold bracketSegment at h
  split at h
  · rename_i hempty
    cases h
    rw [List.isEmpty_iff.mp hempty]
    exact .emptyBracket after
  · rename_i hne
    split at h
    · rename_i hdigits
      split at h
      · cases h
      · rename_i hbound
        cases h
        exact .number after (mt List.isEmpty_iff.mpr hne) hi hdigits (Nat.not_lt.mp hbound)
    · cases h

/-! ## Every error is a fault behind what has been passed -/

/-- Reading stops behind what it has passed, because of a fault there. -/
structure Stops (offset : Nat) (d : Bool) (passed : List Char) (d' : Bool)
    (front rest : List Char) (e : ParseError) : Prop where
  passes : Passes offset d passed d'
  ends : passed ≠ [] → d' = false → EndsStep (front ++ rest)
  fault : Fault (offset + byteLength passed) d' front rest e

theorem Fault.stops (h : Fault offset d front rest e) : Stops offset d [] d front rest e where
  passes := .nothing offset d
  ends := fun hne => absurd rfl hne
  fault := h

/-- Where reading stops behind a step. -/
def StopsIn (offset : Nat) (d : Bool) (cs : List Char) (e : ParseError) : Prop :=
  ∃ passed d' front rest, cs = passed ++ (front ++ rest) ∧ Stops offset d passed d' front rest e

theorem Fault.stopsIn (h : Fault offset d front rest e) : StopsIn offset d (front ++ rest) e :=
  ⟨[], d, front, rest, rfl, h.stops⟩

theorem StopsIn.step (hfirst : first ≠ []) (hread : ∀ rest, (d' = false → EndsStep rest) →
      parseFrom offset d (first ++ rest) =
        (parseFrom (offset + byteLength first) d' rest).map (segment :: ·))
    (hdot : d' = true → first.getLast? = some '.') (hcs : d' = false → EndsStep cs)
    (h : StopsIn (offset + byteLength first) d' cs e) : StopsIn offset d (first ++ cs) e := by
  obtain ⟨passed, d'', front, rest, rfl, hpasses, hends, hfault⟩ := h
  have hpassed : d' = false → EndsStep passed := by
    intro hd
    cases passed with
    | nil => exact fun _ hc => nomatch hc
    | cons c passed => exact hcs hd
  refine ⟨first ++ passed, d'', front, rest, (List.append_assoc _ _ _).symm,
    hpasses.step hfirst hread hdot hpassed, fun _ hd => ?_, ?_⟩
  · by_cases hnil : passed = []
    · subst hnil
      exact hcs ((hpasses.stays rfl).symm.trans hd)
    · exact hends hnil hd
  · rwa [byteLength_append, ← Nat.add_assoc]

theorem stopsIn_of_parseFrom (h : parseFrom offset d cs = .error e) : StopsIn offset d cs e := by
  -- A step that is read leaves less of the text, and what stops the rest stops the whole, so the
  -- induction is on the length.
  induction hn : cs.length using Nat.strongRecOn generalizing cs offset d with
  | _ n ih =>
    cases shape_of cs with
    | nil =>
      rw [parseFrom_nil] at h
      split at h
      · rename_i hd
        cases h
        subst hd
        exact Fault.ends.stopsIn
      · cases h
    | dot rest =>
      rw [parseFrom_dot] at h
      cases h
      exact (Fault.dot rest).stopsIn
    | closing rest =>
      rw [parseFrom_closing] at h
      cases h
      exact (Fault.closing rest).stopsIn
    | @name name after hne hname ha =>
      have hlt : after.length < n := by
        rw [← hn, List.length_append]
        exact Nat.lt_add_of_pos_left (List.length_pos_iff.mpr hne)
      -- A dot behind a step is read with it.
      by_cases hdot : after.head? = some '.'
      · obtain ⟨rest, rfl⟩ := List.head?_eq_some_iff.mp hdot
        rw [List.append_cons] at h ⊢
        rw [pass_dottedName hne hname, Outcome.map_error_iff] at h
        refine StopsIn.step (by simp) (fun rest _ => pass_dottedName hne hname)
          (fun _ => List.getLast?_concat) nofun ?_
        exact ih _ (Nat.lt_of_succ_lt hlt) h rfl
      · have hends := endsStep_of_endsName ha hdot
        rw [pass_name hne hname hends, Outcome.map_error_iff] at h
        refine StopsIn.step hne (fun rest hrest => pass_name hne hname (hrest rfl)) nofun
          (fun _ => hends) ?_
        exact ih _ hlt h rfl
    | @unterminated rest hr =>
      cases d with
      | true =>
        rw [parseFrom_opening_afterDot] at h
        cases h
        exact (Fault.opening rest).stopsIn
      | false =>
        rw [parseFrom_unterminated hr] at h
        cases h
        exact (Fault.unterminated hr).stopsIn
    | @bracket inner after hi =>
      cases d with
      | true =>
        rw [parseFrom_opening_afterDot] at h
        cases h
        exact (Fault.opening _).stopsIn
      | false =>
        have hlt : after.length < n := by
          rw [← hn, List.length_cons, List.length_append, List.length_cons]
          omega
        cases hs : bracketSegment offset inner with
        | error cause =>
          have hfault := fault_of_bracketSegment hi hs after
          cases hfault.parseFrom_eq.symm.trans h
          exact hfault.stopsIn
        | ok segment =>
          have hcut (rest : List Char) : '[' :: (inner ++ ']' :: rest) =
              '[' :: (inner ++ [']']) ++ rest := by simp
          by_cases hdot : after.head? = some '.'
          · obtain ⟨rest, rfl⟩ := List.head?_eq_some_iff.mp hdot
            rw [hcut, List.append_cons] at h ⊢
            rw [pass_dottedBracket hi hs, Outcome.map_error_iff] at h
            refine StopsIn.step (by simp) (fun rest _ => pass_dottedBracket hi hs)
              (fun _ => List.getLast?_concat) nofun ?_
            exact ih _ (Nat.lt_of_succ_lt hlt) h rfl
          -- Behind a bracket only a dot or another bracket may follow, which is asked before the
          -- rest is read.
          · by_cases hends : EndsStep after
            · rw [hcut] at h ⊢
              rw [pass_bracket hi hs hends, Outcome.map_error_iff] at h
              refine StopsIn.step (by simp) (fun rest hrest => pass_bracket hi hs (hrest rfl))
                nofun (fun _ => hends) ?_
              exact ih _ hlt h rfl
            · obtain ⟨c, hc, hother⟩ := by simpa only [EndsStep, not_forall] using hends
              obtain ⟨more, rfl⟩ := List.head?_eq_some_iff.mp (Option.mem_def.mp hc)
              rw [not_or] at hother
              have hfault := Fault.behind more hi hs (fun hc => hdot (hc ▸ rfl)) hother.1
              rw [hcut] at h ⊢
              cases hfault.parseFrom_eq.symm.trans h
              exact hfault.stopsIn

end Places

/-! ## What errors say of the bytes -/

/-- Some text that is read begins with the bytes. -/
def Begins (bytes : List UInt8) : Prop := ∃ raw p, parse raw = .ok p ∧ bytes <+: encode raw

/-- Some text that is read begins with the bytes and goes on. -/
def GoesOn (bytes : List UInt8) : Prop :=
  ∃ raw p, parse raw = .ok p ∧ bytes <+: encode raw ∧ bytes ≠ encode raw

/-- What an error says of the bytes of a text: up to its offset and the byte there, or the pair of
brackets there, no path begins so, unless it is the whole text that is at fault, or a bracket
that is never closed or holds too large a number. -/
def Describes (bytes : List UInt8) : ParseError → Prop
  | .empty => False
  | .emptyField k => (k < bytes.length → ¬ Begins (bytes.take (k + 1))) ∧
      (k = bytes.length → bytes.getLast? = some (ascii '.'))
  | .emptyBracket k => [ascii '[', ascii ']'] <+: bytes.drop k ∧
      ¬ Begins (bytes.take k ++ [ascii '[', ascii ']'])
  | .unterminated k => bytes[k]? = some (ascii '[') ∧ ascii ']' ∉ bytes.drop (k + 1)
  | .unexpected c k => (∃ b, bytes[k]? = some b ∧ c = Char.ofNat b.toNat) ∧
      (c ≠ '[' → ¬ Begins (bytes.take (k + 1))) ∧
      (c = '[' → ∃ digits after,
        bytes.drop k = ascii '[' :: (digits ++ ascii ']' :: after) ∧
        digits.all isDigitByte = true ∧ 2 ^ 64 ≤ decimalValue digits)

section Bytes

variable {raw : String} {passed front rest : List Char} {d : Bool} {e : ParseError}

/-- What is wrong at the place is wrong in every text that has it there. -/
theorem Stops.parseFrom_eq {rest' : List Char} (h : Stops 0 false passed d front rest e)
    (hfault : Fault (0 + byteLength passed) d front rest' e)
    (hends : EndsStep (front ++ rest) → EndsStep (front ++ rest')) :
    parseFrom 0 false (passed ++ front ++ rest') = .error e := by
  obtain ⟨segments, hreads⟩ := h.passes.reads
  rw [List.append_assoc, hreads _ fun hne hd => hends (h.ends hne hd), hfault.parseFrom_eq]
  rfl

/-- What has been passed may go on. -/
theorem Stops.goesOn (h : Stops 0 false passed d front rest e) :
    GoesOn (encodeAll (passed ++ front)) := by
  obtain ⟨more, hne, hends, segments, hok⟩ := h.fault.exists_more
  obtain ⟨before, hreads⟩ := h.passes.reads
  have hread := hreads (front ++ more) fun _ hd => hends hd
  rw [hok, ← List.append_assoc] at hread
  have hraw : encode (String.ofList (passed ++ front ++ more)) =
      encodeAll (passed ++ front) ++ encodeAll more := by
    rw [Utf8.encode_eq, String.toList_ofList, Utf8.encodeAll_append]
  refine ⟨String.ofList (passed ++ front ++ more), ⟨before ++ segments⟩,
    parse_ok_iff.mpr ⟨?_, ?_⟩, ⟨_, hraw.symm⟩, ?_⟩
  · rw [ne_eq, ← String.toList_inj, String.toList_ofList]
    simp [hne]
  · rwa [String.toList_ofList]
  · rw [hraw, ne_eq, List.self_eq_append_right, Utf8.encodeAll_eq_nil_iff]
    exact hne

/-- A text that begins with the bytes before the place is refused there, if the error is the same
for what it has from the place on. -/
theorem Stops.not_begins {bytes : List UInt8} (h : Stops 0 false passed d front rest e)
    (hfault : ∀ rest', bytes <+: encodeAll rest' →
      Fault (0 + byteLength passed) d front rest' e ∧
        (EndsStep (front ++ rest) → EndsStep (front ++ rest'))) :
    ¬ Begins (encodeAll (passed ++ front) ++ bytes) := by
  rintro ⟨raw, ⟨segments⟩, hp, more, hmore⟩
  rw [Utf8.encode_eq, List.append_assoc] at hmore
  obtain ⟨rest', hraw, hrest'⟩ := Utf8.exists_append_of_encodeAll hmore.symm
  obtain ⟨hfault', hends⟩ := hfault rest' ⟨more, hrest'.symm⟩
  have hread := (parse_ok_iff.mp hp).2
  rw [hraw, h.parseFrom_eq hfault' hends] at hread
  cases hread

/-- An error that the byte at its offset decides is the error of every text that begins so. -/
theorem Stops.not_begins_of_isLocal (h : Stops 0 false passed d front rest e)
    (hraw : raw.toList = passed ++ front ++ rest) (hlocal : e.IsLocal) (hrest : rest ≠ []) :
    ¬ Begins ((encode raw).take (byteLength (passed ++ front) + 1)) := by
  obtain ⟨b, hb⟩ : ∃ b, (encodeAll rest).head? = some b :=
    Option.isSome_iff_exists.mp
      (List.isSome_head?.mpr (mt Utf8.encodeAll_eq_nil_iff.mp hrest))
  have htake : (encode raw).take (byteLength (passed ++ front) + 1) =
      encodeAll (passed ++ front) ++ [b] := by
    rw [List.take_add_one, take_encode hraw, getElem?_encode hraw, hb]
    rfl
  rw [htake]
  refine h.not_begins fun rest' hrest' => ?_
  obtain ⟨more, hmore⟩ := hrest'
  have hhead : (encodeAll rest').head? = (encodeAll rest).head? := by
    rw [← hmore, hb]
    rfl
  refine ⟨h.fault.of_head? hlocal hhead, fun hends => ?_⟩
  cases front with
  | nil => exact hends.of_head? hhead
  | cons c front => exact hends

theorem Stops.not_begins_emptyBracket {k : Nat}
    (h : Stops 0 false passed d front rest (.emptyBracket k)) :
    ¬ Begins (encodeAll (passed ++ front) ++ [ascii '[', ascii ']']) := by
  refine h.not_begins fun rest' hrest' => ?_
  obtain ⟨more, hmore⟩ := hrest'
  obtain ⟨inner, rfl, hinner⟩ := Utf8.encodeAll_eq_cons_ascii (x := '[') (by decide) hmore.symm
  obtain ⟨after, rfl, -⟩ := Utf8.encodeAll_eq_cons_ascii (x := ']') (by decide) hinner
  cases h.fault with
  | emptyBracket => exact ⟨.emptyBracket after, fun hends => hends⟩

theorem Stops.getLast?_of_ends (h : Stops 0 false passed true front [] e) :
    (encodeAll passed).getLast? = some (ascii '.') := by
  have hne : passed ≠ [] := fun hnil => Bool.noConfusion (h.passes.stays hnil)
  obtain ⟨init, hinit⟩ := List.getLast?_eq_some_iff.mp (h.passes.dotted hne rfl)
  rw [hinit, Utf8.encodeAll_append]
  exact List.getLast?_concat

/-- The leading byte of a character is an ASCII character only if the character is. -/
theorem eq_of_leadByte {c x : Char} (hx : x.toNat < 128) (h : leadByte c = x) : c = x := by
  rcases Utf8.utf8EncodeChar_cases c with ⟨hc, he⟩ | ⟨-, lead, tail, he, hlead, -⟩
  · rw [leadByte, he] at h
    rw [← h]
    simp only [Utf8.toNat_ascii hc, Char.ofNat_toNat]
  · rw [leadByte, he] at h
    rw [← h] at hx
    simp only [Utf8.toNat_ofNat_toNat] at hx
    omega

theorem Stops.describes (h : Stops 0 false passed d front rest e)
    (hraw : raw.toList = passed ++ front ++ rest) : Describes (encode raw) e := by
  have hlocal := h.not_begins_of_isLocal hraw
  have hlength := length_encode hraw
  have htake := take_encode hraw
  have hdrop := drop_encode hraw
  have hget := getElem?_encode hraw
  have hpositive (c : Char) (cs : List Char) : 0 < byteLength (c :: cs) :=
    Nat.add_pos_left c.utf8Size_pos _
  have hoffset : 0 + byteLength passed + byteLength front = byteLength (passed ++ front) := by
    rw [Nat.zero_add, byteLength_append]
  have hfault := h.fault
  generalize 0 + byteLength passed = offset at hfault hoffset
  -- From here on the offset is the number of bytes before the fault, and each fault is read off the
  -- bytes from there on.
  cases hfault with
  | ends =>
    obtain rfl : offset = _ := hoffset
    refine ⟨fun hlt => ?_, fun _ => ?_⟩
    · rw [hlength] at hlt
      exact absurd hlt (Nat.lt_irrefl _)
    · rw [Utf8.encode_eq, hraw, List.append_nil, List.append_nil]
      exact h.getLast?_of_ends
  | dot more =>
    obtain rfl : offset = _ := hoffset
    refine ⟨fun _ => hlocal trivial (List.cons_ne_nil _ _), fun hend => ?_⟩
    have := hpositive '.' more
    omega
  | opening more =>
    obtain rfl : offset = _ := hoffset
    refine ⟨fun _ => hlocal trivial (List.cons_ne_nil _ _), fun hend => ?_⟩
    have := hpositive '[' more
    omega
  | closing more =>
    obtain rfl : offset = _ := hoffset
    rw [Utf8.encodeAll_cons_ascii (by decide)] at hget
    refine ⟨⟨_, hget, by decide⟩, fun hne => hlocal hne (List.cons_ne_nil _ _), ?_⟩
    exact fun heq => absurd heq (by decide)
  | unterminated hmore =>
    obtain rfl : offset = _ := hoffset
    rw [Utf8.encodeAll_cons_ascii (by decide)] at hget hdrop
    refine ⟨hget, ?_⟩
    rw [← List.drop_drop, hdrop]
    exact (Utf8.ascii_mem_encodeAll (by decide)).not.mpr hmore
  | emptyBracket more =>
    obtain rfl : offset = _ := hoffset
    refine ⟨⟨encodeAll more, ?_⟩, ?_⟩
    · rw [hdrop, Utf8.encodeAll_cons_ascii (by decide), Utf8.encodeAll_cons_ascii (by decide)]
      rfl
    · rw [htake]
      exact h.not_begins_emptyBracket
  | number more hne hclosing hdigits hbound =>
    obtain rfl : offset = _ := hoffset
    rw [Utf8.encodeAll_cons_ascii (by decide)] at hget hdrop
    refine ⟨⟨_, hget, by decide⟩, fun hne => absurd rfl hne, fun _ => ⟨_, encodeAll more, ?_,
      (all_isDigitByte _).trans hdigits, ?_⟩⟩
    · rw [hdrop, Utf8.encodeAll_append, Utf8.encodeAll_cons_ascii (by decide)]
    · rw [decimalValue_encodeAll hdigits]
      exact hbound
  | @behind inner _ c more hi hs hdot hopening =>
    obtain ⟨lead, tail, he, -, -⟩ := Utf8.utf8EncodeChar_eq_cons c
    rw [hoffset] at h hlocal ⊢
    rw [Utf8.encodeAll_cons, he] at hget
    refine ⟨⟨lead, hget, by rw [leadByte, he]⟩,
      fun hne => hlocal hne (List.cons_ne_nil _ _), fun heq => ?_⟩
    exact absurd (eq_of_leadByte (by decide) heq) hopening

end Bytes

/-- A text that is not read is refused at a place between two of its characters. The text before
it is the beginning of a path, and no path goes on as the text does there, as far as that can be
told without the rest: not with the byte at the place, which an unexpected byte is reported as, and
not with the empty brackets there. Otherwise the bracket at the place is not closed, or what it
holds is a number of more than 64 bits; and a name is missing at the end only behind a dot. -/
theorem parse_error_place {raw : String} {e : ParseError} (hne : raw ≠ "")
    (h : parse raw = .error e) : ∃ k, e.offset? = some k ∧ k ≤ (encode raw).length ∧
      Utf8.IsBoundary (encode raw) k ∧ GoesOn ((encode raw).take k) ∧
      Describes (encode raw) e := by
  unfold parse at h
  rw [if_neg (by simpa using hne), Outcome.map_error_iff] at h
  obtain ⟨passed, d, front, rest, hraw, hstops⟩ := stopsIn_of_parseFrom h
  rw [← List.append_assoc] at hraw
  refine ⟨byteLength (passed ++ front), ?_, ?_, ?_, ?_, hstops.describes hraw⟩
  · rw [hstops.fault.offset_eq, byteLength_append, Nat.zero_add]
  · rw [length_encode hraw]
    exact Nat.le_add_right _ _
  · rw [Utf8.encode_eq, Utf8.isBoundary_iff]
    exact ⟨_, rest, hraw, length_encodeAll _⟩
  · rw [take_encode hraw]
    exact hstops.goesOn

/-- The byte that is unexpected is the first of a character of two. -/
theorem parse_error_place_umlaut : parse "größe[x]é" = .error (.unexpected 'Ã' 10) ∧
    GoesOn ((encode "größe[x]é").take 10) ∧ ¬ Begins ((encode "größe[x]é").take 11) := by
  have h : parse "größe[x]é" = .error (.unexpected 'Ã' 10) := by decide +kernel
  obtain ⟨k, hk, -, -, hgoes, -, hbegins, -⟩ := parse_error_place (by decide) h
  obtain rfl : 10 = k := Option.some.inj hk
  exact ⟨h, hgoes, hbegins (by decide)⟩

end FieldPath

end CompositionGen
