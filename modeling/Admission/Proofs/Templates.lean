/-
What a message template says, and what a client is told.

A template may be written as any row of texts without an opening bracket and of places with one
of the known names (`Template.Plain`). A text is read exactly if it is written so, and what is read
is the same row with neighbouring texts put together (`Template.settle`), so it shows the same text,
has the same places in the same order, and is filled in to the same message. If a text is not
written so, there is a first bracket to blame (`Template.Offends`).

Rules in force have been examined, so their messages are templates; and a request has everything
that a template can ask for, except perhaps a caller and a tenant. That leaves one reason for
giving a message as it stands (`message_filled_in_once`).
-/
import Admission.Proofs.Export
import Admission.Proofs.SelfConsistency

set_option autoImplicit false

namespace Admission

/-- A name that is known is the name of its place, and no other spelling of it. -/
theorem Placeholder.eq_name_of_ofName? {name : String} {p : Placeholder}
    (h : ofName? name = some p) : name = p.name := by
  obtain ⟨before, after, hnames, -⟩ := List.lookup_eq_some_iff.1 h
  have hmem : (name, p) ∈ names := hnames ▸ List.mem_append_cons_self
  have hall : ∀ entry ∈ names, entry.1 = entry.2.name := by decide
  exact hall _ hmem

/-- The names of places hold no brackets. -/
theorem Placeholder.no_bracket_in_name (p : Placeholder) :
    '\x7b' ∉ p.name.toList ∧ '\x7d' ∉ p.name.toList := by
  cases p <;> decide

namespace Template

/-! ## What may be written -/

/-- A piece as it may be written: a place, or a text without an opening bracket. -/
def Part.Plain : Part → Prop
  | .text value => '\x7b' ∉ value.toList
  | .field _ => True

instance : (part : Part) → Decidable part.Plain
  | .text value => inferInstanceAs (Decidable ('\x7b' ∉ value.toList))
  | .field _ => inferInstanceAs (Decidable True)

/-- **A template as it may be written:** no text between its places has an opening bracket. -/
def Plain (t : Template) : Prop := ∀ part ∈ t.parts, part.Plain

instance (t : Template) : Decidable t.Plain :=
  inferInstanceAs (Decidable (∀ part ∈ t.parts, part.Plain))

/-- **What is wrong with a text that is no template.** It starts as one, up to an opening bracket.
Behind this bracket there is no closing one, or what stands up to the first closing one is not a
known name. -/
inductive Offends (pattern : String) : Fault → Prop
  | unclosed {front : Template} {rest : String} (hfront : front.Plain)
    (hpattern : pattern = front.render ++ "\x7b" ++ rest) (hrest : '\x7d' ∉ rest.toList) :
    Offends pattern (.unclosed pattern)
  | unknown {front : Template} {name rest : String} (hfront : front.Plain)
    (hpattern : pattern = front.render ++ bracketed name ++ rest) (hname : '\x7d' ∉ name.toList)
    (hunknown : Placeholder.ofName? name = none) : Offends pattern (.unknown name)

variable {pattern : String} {gathered cs : List Char} {parts : List Part} {p : Placeholder}
variable {t : Template}

theorem render_cons (part : Part) (parts : List Part) :
    render ⟨part :: parts⟩ = part.render ++ render ⟨parts⟩ := by
  rw [render, render, List.map_cons, String.join_cons]

theorem toList_bracketed (name : String) :
    (bracketed name).toList = '\x7b' :: (name.toList ++ ['\x7d']) := by
  rw [bracketed, String.toList_append, String.toList_append]
  rfl

theorem plain_cons_iff {part : Part} : Plain ⟨part :: parts⟩ ↔ part.Plain ∧ Plain ⟨parts⟩ :=
  List.forall_mem_cons

theorem plain_nil : Plain ⟨[]⟩ := List.forall_mem_nil _

/-- What a split of a text in two is, at a character that the front does not hold. -/
theorem exists_of_append_eq_append_cons {c : Char} {front rest before after : List Char}
    (hc : c ∉ front) (h : front ++ rest = before ++ c :: after) :
    ∃ between, before = front ++ between ∧ rest = between ++ c :: after := by
  obtain hsplit | ⟨between, rfl, hrest⟩ := List.append_eq_append_iff.1 h
  · exact hsplit
  · cases between with
    | nil => exact ⟨[], by simp, hrest.symm⟩
    | cons d more =>
      obtain ⟨rfl, -⟩ := List.cons.inj hrest
      exact absurd (List.mem_append_right before List.mem_cons_self) hc

/-- **Every opening bracket of a template opens a place.** -/
theorem Plain.opens (h : t.Plain) {before after : String}
    (hsplit : t.render = before ++ "\x7b" ++ after) :
    ∃ p more, after = Placeholder.name p ++ "\x7d" ++ more := by
  obtain ⟨parts⟩ := t
  have hsplit : (render ⟨parts⟩).toList = before.toList ++ '\x7b' :: after.toList := by
    rw [hsplit, String.toList_append, String.toList_append, List.append_assoc]
    rfl
  clear * - h hsplit
  generalize before.toList = before at hsplit
  induction parts generalizing before with
  | nil => exact absurd hsplit.symm (by simp [render])
  | cons part parts ih =>
    rw [render_cons, String.toList_append] at hsplit
    rw [plain_cons_iff] at h
    cases part with
    | text value =>
      obtain ⟨between, -, hrest⟩ := exists_of_append_eq_append_cons h.1 hsplit
      exact ih h.2 between hrest
    | field p =>
      rw [Part.render, toList_bracketed, List.cons_append] at hsplit
      cases before with
      | nil =>
        refine ⟨p, render ⟨parts⟩, String.toList_inj.1 ?_⟩
        rw [← (List.cons.inj hsplit).2, String.toList_append, String.toList_append]
        rfl
      | cons c before =>
        -- the bracket stands behind this place, whose name holds none
        have hname : '\x7b' ∉ p.name.toList ++ ['\x7d'] := by
          simpa using p.no_bracket_in_name.1
        obtain ⟨between, -, hrest⟩ :=
          exists_of_append_eq_append_cons hname (List.cons.inj hsplit).2
        exact ih h.2 between hrest

theorem render_concat (t : Template) (part : Part) :
    render ⟨t.parts ++ [part]⟩ = t.render ++ part.render := by
  rw [render, render, List.map_append, String.join_append]
  simp

/-- A template that is gone on with is a template. -/
theorem Plain.concat (h : t.Plain) {part : Part} (hpart : part.Plain) :
    Plain ⟨t.parts ++ [part]⟩ :=
  List.forall_mem_append.2 ⟨h, List.forall_mem_singleton.2 hpart⟩

/-- A text up to the next opening bracket may be a piece. -/
theorem plain_text {cs : List Char} (h : '\x7b' ∉ cs) : (Part.text (String.ofList cs)).Plain := by
  rwa [Part.Plain, String.toList_ofList]

/-- **A text is a template, or a bracket in it is to blame.** -/
theorem exists_plain_or_offends (pattern : String) :
    (∃ t : Template, t.Plain ∧ t.render = pattern) ∨ ∃ fault, Offends pattern fault := by
  -- what was read of the text so far is a template, and what follows gets shorter
  suffices h : ∀ (n : Nat) (front : Template) (rest : List Char), rest.length = n → front.Plain →
      pattern = front.render ++ String.ofList rest →
      (∃ t : Template, t.Plain ∧ t.render = pattern) ∨ ∃ fault, Offends pattern fault by
    refine h _ ⟨[]⟩ pattern.toList rfl plain_nil ?_
    rw [String.ofList_toList, render, List.map_nil, String.join_nil, String.empty_append]
  intro n
  induction n using Nat.strong_induction_on with
  | _ n ih =>
    intro front rest hlength hfront hpattern
    by_cases hopen : '\x7b' ∈ rest
    swap
    · refine .inl ⟨_, hfront.concat (plain_text hopen), ?_⟩
      rw [render_concat, hpattern]
      rfl
    obtain ⟨text, behind, rfl, htext⟩ := List.eq_append_cons_of_mem hopen
    have hplain := hfront.concat (plain_text htext)
    have hpattern : pattern = render ⟨front.parts ++ [.text (String.ofList text)]⟩ ++
        "\x7b" ++ String.ofList behind := by
      rw [render_concat, hpattern, ← String.toList_inj]
      simp [Part.render]
    by_cases hclose : '\x7d' ∈ behind
    swap
    · exact .inr ⟨_, .unclosed hplain hpattern (by rwa [String.toList_ofList])⟩
    obtain ⟨name, more, rfl, hname⟩ := List.eq_append_cons_of_mem hclose
    have hpattern : pattern = render ⟨front.parts ++ [.text (String.ofList text)]⟩ ++
        bracketed (String.ofList name) ++ String.ofList more := by
      rw [hpattern, ← String.toList_inj]
      simp [bracketed]
    cases hnamed : Placeholder.ofName? (String.ofList name) with
    | none => exact .inr ⟨_, .unknown hplain hpattern (by rwa [String.toList_ofList]) hnamed⟩
    | some p =>
      rw [Placeholder.eq_name_of_ofName? hnamed] at hpattern
      have hplain := hplain.concat (show (Part.field p).Plain from trivial)
      refine ih more.length ?_ _ more rfl hplain ?_
      · simp only [← hlength, List.length_append, List.length_cons]
        omega
      · rw [render_concat, hpattern]
        rfl

/-! ## What is read -/

/-- A text without an opening bracket is gathered. -/
theorem parseFrom_text {text : List Char} (h : '\x7b' ∉ text) :
    parseFrom pattern gathered none (text ++ cs) =
      parseFrom pattern (text.reverse ++ gathered) none cs := by
  induction text generalizing gathered with
  | nil => rfl
  | cons c rest ih =>
    rw [List.mem_cons, not_or] at h
    rw [List.cons_append, parseFrom, if_neg (Ne.symm h.1), ih h.2, List.reverse_cons,
      List.append_assoc, List.singleton_append]

/-- Behind an opening bracket, all up to the closing one is the name. -/
theorem parseFrom_name {name : List Char} (h : '\x7d' ∉ name) (read : List Char) :
    parseFrom pattern gathered (some read) (name ++ cs) =
      parseFrom pattern gathered (some (name.reverse ++ read)) cs := by
  induction name generalizing read with
  | nil => rfl
  | cons c rest ih =>
    rw [List.mem_cons, not_or] at h
    rw [List.cons_append, parseFrom, if_neg (Ne.symm h.1), ih h.2, List.reverse_cons,
      List.append_assoc, List.singleton_append]

/-- A bracket with a known name is read as a place. -/
theorem parseFrom_field (p : Placeholder) :
    parseFrom pattern gathered none ((bracketed p.name).toList ++ cs) =
      (fun parts => flush gathered (.field p :: parts)) <$> parseFrom pattern [] none cs := by
  rw [toList_bracketed, List.cons_append, List.append_assoc, List.singleton_append, parseFrom,
    if_pos rfl, parseFrom_name p.no_bracket_in_name.2, parseFrom, if_pos rfl, List.append_nil,
    List.reverse_reverse, String.ofList_toList, Placeholder.ofName?_name]
  exact Functor.map_map _ _ _

/-- A bracket that is not closed is a fault, and the whole text is blamed for it. -/
theorem parseFrom_unclosed {rest : List Char} (h : '\x7d' ∉ rest) :
    parseFrom pattern gathered none ('\x7b' :: rest) = .error (.unclosed pattern) := by
  rw [← List.append_nil rest, parseFrom, if_pos rfl, parseFrom_name h, parseFrom]
  rfl

/-- A bracket with any other name is a fault, and the name is blamed for it. -/
theorem parseFrom_unknown {name : String} (h : '\x7d' ∉ name.toList)
    (hunknown : Placeholder.ofName? name = none) :
    parseFrom pattern gathered none ((bracketed name).toList ++ cs) = .error (.unknown name) := by
  rw [toList_bracketed, List.cons_append, List.append_assoc, List.singleton_append, parseFrom,
    if_pos rfl, parseFrom_name h, parseFrom, if_pos rfl, List.append_nil, List.reverse_reverse,
    String.ofList_toList, hunknown]
  rfl

/-- **Pieces as they are read,** behind what was gathered: neighbouring texts are put together. -/
def settle : (gathered : List Char) → List Part → List Part
  | gathered, [] => flush gathered []
  | gathered, .text value :: rest => settle (value.toList.reverse ++ gathered) rest
  | gathered, .field p :: rest => flush gathered (.field p :: settle [] rest)

/-- A template is read as its pieces, settled behind what was gathered before them. -/
theorem parseFrom_render (h : Plain ⟨parts⟩) :
    parseFrom pattern gathered none (render ⟨parts⟩).toList = .ok (settle gathered parts) := by
  induction parts generalizing gathered with
  | nil => rfl
  | cons part parts ih =>
    rw [plain_cons_iff] at h
    rw [render_cons, String.toList_append]
    cases part with
    | text value =>
      rw [Part.render, parseFrom_text h.1, ih h.2]
      rfl
    | field p =>
      rw [Part.render, parseFrom_field, ih h.2]
      rfl

/-- What is wrong behind a template is reported, whatever stands before. -/
theorem parseFrom_render_append {fault : Fault} (h : Plain ⟨parts⟩)
    (hrest : ∀ gathered, parseFrom pattern gathered none cs = .error fault) :
    parseFrom pattern gathered none ((render ⟨parts⟩).toList ++ cs) = .error fault := by
  induction parts generalizing gathered with
  | nil => exact hrest gathered
  | cons part parts ih =>
    rw [plain_cons_iff] at h
    rw [render_cons, String.toList_append, List.append_assoc]
    cases part with
    | text value => rw [Part.render, parseFrom_text h.1, ih h.2]
    | field p =>
      rw [Part.render, parseFrom_field, ih h.2]
      rfl

/-- **A template is read from the text that it shows.** -/
theorem parse_render (h : t.Plain) : parse t.render = .ok ⟨settle [] t.parts⟩ := by
  rw [parse, parseFrom_render h]
  rfl

/-- **A bracket to blame is the fault that is reported.** -/
theorem Offends.parse_eq {fault : Fault} (h : Offends pattern fault) :
    parse pattern = .error fault := by
  suffices hfrom : parseFrom pattern [] none pattern.toList = .error fault by
    rw [parse, hfrom]
    rfl
  cases h with
  | @unclosed front rest hfront hpattern hrest =>
    have hchars : pattern.toList = front.render.toList ++ '\x7b' :: rest.toList := by
      simp [hpattern]
    rw [hchars]
    exact parseFrom_render_append hfront fun _ => parseFrom_unclosed hrest
  | @unknown front name rest hfront hpattern hname hunknown =>
    have hchars : pattern.toList =
        front.render.toList ++ ((bracketed name).toList ++ rest.toList) := by
      simp [hpattern]
    rw [hchars]
    exact parseFrom_render_append hfront fun _ => parseFrom_unknown hname hunknown

/-- **What a text is read as.** -/
theorem parse_eq_ok_iff {r : Template} :
    parse pattern = .ok r ↔
      ∃ t : Template, t.Plain ∧ t.render = pattern ∧ r = ⟨settle [] t.parts⟩ := by
  constructor
  · intro h
    obtain ⟨t, ht, rfl⟩ | ⟨fault, hfault⟩ := exists_plain_or_offends pattern
    · rw [parse_render ht, Except.ok.injEq] at h
      exact ⟨t, ht, rfl, h.symm⟩
    · rw [hfault.parse_eq] at h
      cases h
  · rintro ⟨t, ht, rfl, rfl⟩
    exact parse_render ht

/-- **Why a text is not read.** -/
theorem parse_eq_error_iff {fault : Fault} :
    parse pattern = .error fault ↔ Offends pattern fault := by
  refine ⟨fun h => ?_, Offends.parse_eq⟩
  obtain ⟨t, ht, rfl⟩ | ⟨other, hother⟩ := exists_plain_or_offends pattern
  · rw [parse_render ht] at h
    cases h
  · rw [hother.parse_eq, Except.error.injEq] at h
    exact h ▸ hother

/-! ## What is filled in -/

/-- A piece with the value of its place; a place without a value is left empty. -/
def Part.filled (source : Source) : Part → String
  | .text value => value
  | .field p => (source.value? p).getD ""

/-- **A template with the values of its places.** -/
def filled (t : Template) (source : Source) : String :=
  String.join (t.parts.map (Part.filled source))

/-- What was gathered shows in front of the pieces behind it. -/
theorem join_map_flush {f : Part → String} (hf : ∀ value, f (.text value) = value) :
    String.join ((flush gathered parts).map f) =
      String.ofList gathered.reverse ++ String.join (parts.map f) := by
  cases gathered with
  | nil => simp [flush]
  | cons c rest => rw [flush, List.map_cons, String.join_cons, hf]

/-- Texts that are put together stay the same texts. -/
theorem join_map_settle {f : Part → String} (hf : ∀ value, f (.text value) = value) :
    String.join ((settle gathered parts).map f) =
      String.ofList gathered.reverse ++ String.join (parts.map f) := by
  induction parts generalizing gathered with
  | nil => exact join_map_flush hf
  | cons part parts ih =>
    cases part with
    | text value =>
      rw [settle, ih, List.map_cons, String.join_cons, hf, List.reverse_append,
        List.reverse_reverse, String.ofList_append, String.ofList_toList, String.append_assoc]
    | field p =>
      rw [settle, join_map_flush hf, List.map_cons, List.map_cons, String.join_cons,
        String.join_cons, ih]
      simp

theorem placeholders_cons_field (p : Placeholder) (parts : List Part) :
    placeholders ⟨.field p :: parts⟩ = p :: placeholders ⟨parts⟩ := rfl

theorem placeholders_cons_text (value : String) (parts : List Part) :
    placeholders ⟨.text value :: parts⟩ = placeholders ⟨parts⟩ := rfl

theorem placeholders_flush : placeholders ⟨flush gathered parts⟩ = placeholders ⟨parts⟩ := by
  cases gathered <;> rfl

/-- Putting texts together keeps the places and their order. -/
theorem placeholders_settle : placeholders ⟨settle gathered parts⟩ = placeholders ⟨parts⟩ := by
  induction parts generalizing gathered with
  | nil => exact placeholders_flush
  | cons part parts ih =>
    cases part with
    | text value => rw [settle, ih, placeholders_cons_text]
    | field p =>
      rw [settle, placeholders_flush, placeholders_cons_field, placeholders_cons_field, ih]

/-- What was gathered may be written in front, since no opening bracket is gathered. -/
theorem plain_flush (h : Plain ⟨parts⟩) (hgathered : '\x7b' ∉ gathered) :
    Plain ⟨flush gathered parts⟩ := by
  cases gathered with
  | nil => exact h
  | cons c rest => exact plain_cons_iff.2 ⟨plain_text (by rwa [List.mem_reverse]), h⟩

/-- What is read could have been written. -/
theorem plain_settle (h : Plain ⟨parts⟩) (hgathered : '\x7b' ∉ gathered) :
    Plain ⟨settle gathered parts⟩ := by
  induction parts generalizing gathered with
  | nil => exact plain_flush h hgathered
  | cons part parts ih =>
    rw [plain_cons_iff] at h
    cases part with
    | text value =>
      refine ih h.2 ?_
      rw [List.mem_append, List.mem_reverse, not_or]
      exact ⟨h.1, hgathered⟩
    | field p =>
      exact plain_flush (plain_cons_iff.2 ⟨trivial, ih h.2 List.not_mem_nil⟩) hgathered

/-- The pieces filled in one after another, up to a place without a value. -/
theorem mapM_resolve (source : Source) (parts : List Part) :
    parts.mapM (Part.resolve source) =
      match (placeholders ⟨parts⟩).find? fun p => (source.value? p).isNone with
      | some p => .error (.missing p)
      | none => .ok (parts.map (Part.filled source)) := by
  induction parts with
  | nil => rfl
  | cons part parts ih =>
    rw [List.mapM_cons, ih]
    cases part with
    | text value =>
      rw [placeholders_cons_text]
      cases (placeholders ⟨parts⟩).find? fun p => (source.value? p).isNone <;> rfl
    | field p =>
      rw [placeholders_cons_field, List.find?_cons, Part.resolve]
      cases hvalue : source.value? p with
      | none => rfl
      | some value =>
        rw [List.map_cons, Part.filled, hvalue]
        cases (placeholders ⟨parts⟩).find? fun p => (source.value? p).isNone <;> rfl

/-- **What filling in comes to:** the first place without a value is the fault. -/
theorem resolve_eq (t : Template) (source : Source) :
    t.resolve source = match t.placeholders.find? fun p => (source.value? p).isNone with
      | some p => .error (.missing p)
      | none => .ok (t.filled source) := by
  rw [resolve, mapM_resolve]
  cases t.placeholders.find? fun p => (source.value? p).isNone <;> rfl

/-- **A template is filled in if and only if every place has a value.** -/
theorem resolve_eq_ok_iff {source : Source} {text : String} :
    t.resolve source = .ok text ↔
      (∀ p ∈ t.placeholders, (source.value? p).isSome) ∧ text = t.filled source := by
  rw [resolve_eq]
  cases hfind : t.placeholders.find? fun p => (source.value? p).isNone with
  | none =>
    rw [List.find?_eq_none] at hfind
    rw [Except.ok.injEq, eq_comm, and_iff_right]
    intro p hp
    simpa [Option.isSome_iff_ne_none] using hfind p hp
  | some p =>
    refine iff_of_false nofun ?_
    rintro ⟨hall, -⟩
    have hsome := hall p (List.mem_of_find?_eq_some hfind)
    have hnone := List.find?_some hfind
    rw [Option.isNone_iff_eq_none.1 hnone] at hsome
    cases hsome

/-- **The fault of a template that is not filled in** is its first place without a value. -/
theorem resolve_eq_error_iff {source : Source} {fault : Fault} :
    t.resolve source = .error fault ↔ ∃ before p after, t.placeholders = before ++ p :: after ∧
      (∀ earlier ∈ before, (source.value? earlier).isSome) ∧ source.value? p = none ∧
      fault = .missing p := by
  constructor
  · intro h
    rw [resolve_eq] at h
    split at h
    · rename_i p hfind
      cases h
      obtain ⟨hnone, before, after, hsplit, hbefore⟩ := List.find?_eq_some_iff_append.1 hfind
      exact ⟨before, p, after, hsplit, fun earlier hearlier => by simpa using hbefore _ hearlier,
        Option.isNone_iff_eq_none.1 hnone, rfl⟩
    · cases h
  · rintro ⟨before, p, after, hsplit, hbefore, hnone, rfl⟩
    have hfind : t.placeholders.find? (fun p => (source.value? p).isNone) = some p :=
      List.find?_eq_some_iff_append.2 ⟨Option.isNone_iff_eq_none.2 hnone, before, after, hsplit,
        fun earlier hearlier => by simpa using hbefore earlier hearlier⟩
    rw [resolve_eq, hfind]

/-- **A template is filled in as it is written,** however its texts are cut. -/
theorem exists_parse_render (h : t.Plain) : ∃ r, parse t.render = .ok r ∧ r.Plain ∧
    r.render = t.render ∧ r.placeholders = t.placeholders ∧
    ∀ source, r.resolve source = t.resolve source := by
  have hplaceholders : placeholders ⟨settle [] t.parts⟩ = t.placeholders := placeholders_settle
  refine ⟨_, parse_render h, plain_settle h List.not_mem_nil, ?_, hplaceholders, fun source => ?_⟩
  · exact (join_map_settle fun _ => rfl).trans (String.empty_append)
  · have hfilled : filled ⟨settle [] t.parts⟩ source = t.filled source :=
      (join_map_settle fun _ => rfl).trans (String.empty_append)
    rw [resolve_eq, resolve_eq, hplaceholders, hfilled]

/-! ## What a client is told -/

/-- **A request lacks what a template asks for:** a caller, or a tenant. -/
def LackedBy (t : Template) (request : Request) : Prop :=
  (.callerId ∈ t.placeholders ∧ request.caller = none) ∨
    (.tenantId ∈ t.placeholders ∧ request.tenant = none)

/-- A request has everything else that can be asked for. -/
theorem lackedBy_iff {request : Request} :
    t.LackedBy request ↔ ¬ ∀ p ∈ t.placeholders, (request.source.value? p).isSome := by
  push Not
  constructor
  · rintro (⟨hp, hnone⟩ | ⟨hp, hnone⟩)
    · exact ⟨_, hp, by simp [Source.value?, Request.source, hnone]⟩
    · exact ⟨_, hp, by simp [Source.value?, Request.source, hnone]⟩
  · rintro ⟨p, hp, hnone⟩
    cases p with
    | callerId => exact .inl ⟨hp, by simpa [Source.value?, Request.source] using hnone⟩
    | tenantId => exact .inr ⟨hp, by simpa [Source.value?, Request.source] using hnone⟩
    | address | endpoint | method => exact absurd rfl hnone

end Template

/-- **What a rule's own message comes to.** -/
theorem Decision.denialMessage_of_message {rule : Rule} {t : Template} (ht : t.Plain)
    (hmessage : rule.message = some t.render) (request : Request) :
    (t.LackedBy request → denialMessage rule request = t.render) ∧
      (¬ t.LackedBy request → denialMessage rule request = t.filled request.source) := by
  obtain ⟨r, hparse, -, -, -, hresolve⟩ := Template.exists_parse_render ht
  have hbind : (Template.parse t.render).bind (·.resolve request.source) =
      t.resolve request.source := by
    rw [hparse, ← hresolve]
    rfl
  rw [denialMessage, hmessage]
  dsimp only
  rw [hbind, Template.lackedBy_iff, not_not]
  constructor
  · intro hlacks
    cases hfilled : t.resolve request.source with
    | ok text => exact absurd (Template.resolve_eq_ok_iff.1 hfilled).1 hlacks
    | error fault => rfl
  · intro hall
    rw [Template.resolve_eq_ok_iff.2 ⟨hall, rfl⟩]

/-- The rules in force are valid. -/
theorem RuleSet.valid_of_build {rules : List Rule} {defaults : DefaultLimits} {set : RuleSet}
    (h : build rules defaults = .ok set) {rule : Rule} (hr : rule ∈ set.rules) : rule.Valid := by
  obtain ⟨hvalid, -, rfl⟩ := build_eq_ok_iff.1 h
  obtain ⟨given, hgiven, hr⟩ := List.mem_flatMap.1 hr
  exact (Rule.error?_eq_none_iff.1 (hvalid given hgiven)).of_mem_expand hr

/-! ## The law -/

/-- **A message is what it is written as, filled in once.** A text is read exactly if it can be
written as texts without an opening bracket and places with known names, one after another; so a
closing bracket that belongs to no place is text. Otherwise there is an opening bracket that no
known name and closing bracket follow, and the fault is the one of this bracket: what stands before
it is a template, and in a template every opening bracket does open a place, so it is the first.

What is read shows the text that it was read from. It has the places of the text as it is written,
in their order, and is filled in to the same: to the texts and the values of the places one after
another, if all places have a value, whatever the values hold; and if not, the first place without
one is the fault.

Take rules that could be put in force. The message of every rule in force is a template. A request
that is denied, whatever the store answered, is denied by a rule that governs it. If this rule has
a message, the client is told the message filled in from the request; only if it asks for a caller
or a tenant that the request does not have, it is told the message as it stands. -/
theorem message_filled_in_once :
    (∀ s, (∃ t, Template.parse s = .ok t) ↔ ∃ t : Template, t.Plain ∧ t.render = s) ∧
    (∀ s fault, Template.parse s = .error fault ↔ Template.Offends s fault) ∧
    (∀ t : Template, t.Plain → ∀ before after, t.render = before ++ "\x7b" ++ after →
      ∃ p more, after = Placeholder.name p ++ "\x7d" ++ more) ∧
    (∀ s t, Template.parse s = .ok t → t.Plain ∧ t.render = s) ∧
    (∀ t : Template, t.Plain → ∃ r, Template.parse t.render = .ok r ∧
      r.placeholders = t.placeholders ∧ ∀ source, r.resolve source = t.resolve source) ∧
    (∀ (t : Template) (source : Source),
      (∀ text, t.resolve source = .ok text ↔
        (∀ p ∈ t.placeholders, (source.value? p).isSome) ∧ text = t.filled source) ∧
      ∀ fault, t.resolve source = .error fault ↔
        ∃ before p after, t.placeholders = before ++ p :: after ∧
          (∀ earlier ∈ before, (source.value? earlier).isSome) ∧ source.value? p = none ∧
          fault = .missing p) ∧
    ∀ rules defaults set, RuleSet.build rules defaults = .ok set →
      (∀ rule ∈ set.rules, ∀ text, rule.message = some text →
        ∃ t : Template, t.Plain ∧ t.render = text) ∧
      ∀ (settings : LimiterSettings) (whitelist : Whitelist) (request : Request) (now : Nat)
        (σ : Type) (answer : σ → (call : Call) → Reply call.Answer × σ) (s : σ),
        let l : Limiter := ⟨settings, set, whitelist⟩
        ∀ d, ((l.check request now).run answer s).1.1 = .ok d → d.allowed = false →
          ∃ rule ∈ set.resolve request, d.appliedRule = some rule.id ∧
            (rule.message = none → d.message = some (Decision.defaultMessage rule)) ∧
            ∀ t : Template, t.Plain → rule.message = some t.render →
              (t.LackedBy request → d.message = some t.render) ∧
              (¬ t.LackedBy request → d.message = some (t.filled request.source)) := by
  have hread : ∀ s t, Template.parse s = .ok t → t.Plain ∧ t.render = s := by
    intro s r h
    obtain ⟨t, ht, rfl, -⟩ := Template.parse_eq_ok_iff.1 h
    obtain ⟨r', hparse, hplain, hrender, -⟩ := Template.exists_parse_render ht
    rw [hparse, Except.ok.injEq] at h
    exact h ▸ ⟨hplain, hrender⟩
  refine ⟨fun s => ⟨?_, ?_⟩, fun s fault => Template.parse_eq_error_iff,
    fun t ht before after => ht.opens, hread, ?_,
    fun t source => ⟨fun text => Template.resolve_eq_ok_iff,
      fun fault => Template.resolve_eq_error_iff⟩, ?_⟩
  · rintro ⟨t, h⟩
    exact ⟨t, hread s t h⟩
  · rintro ⟨t, ht, rfl⟩
    obtain ⟨r, hparse, -⟩ := Template.exists_parse_render ht
    exact ⟨r, hparse⟩
  · intro t ht
    obtain ⟨r, hparse, -, -, hplaceholders, hresolve⟩ := Template.exists_parse_render ht
    exact ⟨r, hparse, hplaceholders, hresolve⟩
  · intro rules defaults set hbuild
    refine ⟨fun rule hr text htext => ?_, ?_⟩
    · obtain ⟨t, h⟩ := (RuleSet.valid_of_build hbuild hr).message text htext
      exact ⟨t, hread text t h⟩
    · intro settings whitelist request now σ answer s l d hd hdenied
      obtain ⟨e, hchecks, hanswer⟩ :=
        Limiter.checks_of_goes (Interaction.goes_exchanges answer (l.check request now) s)
      rw [hd] at hanswer
      rcases Ending.decision_cases hanswer.symm with ⟨details, rfl⟩ | ⟨m, -, rfl⟩ | ⟨m, rfl, rfl⟩
      · cases hdenied
      · cases hdenied
      obtain ⟨hr, -⟩ := hchecks.heard_of_denied
      refine ⟨m.rule, hr, rfl, fun hnone => ?_, fun t ht hmessage => ?_⟩
      · show some (Decision.denialMessage m.rule request) = _
        rw [Decision.denialMessage, hnone]
      · obtain ⟨hlacks, hhas⟩ := Decision.denialMessage_of_message ht hmessage request
        exact ⟨fun h => congrArg some (hlacks h), fun h => congrArg some (hhas h)⟩

/-! ## A caller with a telling name -/

namespace TemplateSample

/-- A message with one place, and a closing bracket that belongs to none. -/
def template : Template := ⟨[.text "Wait, ", .field .callerId, .text "\x7d"]⟩

def rule : Rule :=
  { Rule.basic "burst" .address 1 60 with message := some "Wait, \x7bcallerId\x7d\x7d" }

def limiter : Limiter := ⟨⟨true, false, 50, "turnstile"⟩, ⟨[rule]⟩, ⟨[], [], [], false⟩⟩

def request (caller : Option String) : Request :=
  (Request.describe "GET" "/search" "10.0.0.1").withCaller caller

/-- A store in which every limit is exceeded. -/
def answer : Unit → (call : Call) → Reply call.Answer × Unit
  | _, .incrementFixed .. => (.answered ⟨2, 1000⟩, ())
  | _, .incrementSliding .. => (.answered ⟨1, true, 1000⟩, ())
  | _, .hasMarker _ | _, .read _ | _, .reset _ | _, .setMarker .. => (.silent, ())

/-- The answer to a caller. -/
def decided (caller : Option String) : Except Error Decision :=
  ((limiter.check (request caller) 60000).run answer ()).1.1

/-- What a caller is told. -/
def told (caller : Option String) : Option String :=
  match decided caller with
  | .ok d => d.message
  | .error _ => none

end TemplateSample

open TemplateSample in
/-- A caller whose name looks like a place is told its name. Without a caller, the message is given
as it stands. -/
theorem message_filled_in_once_of_burst :
    RuleSet.build [rule] .empty = .ok ⟨[rule]⟩ ∧ template.Plain ∧
    rule.message = some template.render ∧
    told (some "\x7btenantId\x7d") = some "Wait, \x7btenantId\x7d\x7d" ∧
    told none = some "Wait, \x7bcallerId\x7d\x7d" := by
  have hbuild : RuleSet.build [rule] .empty = .ok ⟨[rule]⟩ := by cbv
  have hplain : template.Plain := by decide
  have hmessage : rule.message = some template.render := by cbv
  obtain ⟨-, -, -, -, -, -, hdenials⟩ := message_filled_in_once
  obtain ⟨-, hdenied⟩ := hdenials [rule] .empty _ hbuild
  have htold : ∀ caller, (decided caller).toOption.map Decision.allowed = some false →
      (template.LackedBy (request caller) → told caller = some template.render) ∧
        (¬ template.LackedBy (request caller) →
          told caller = some (template.filled (request caller).source)) := by
    intro caller hdecided
    cases hd : decided caller with
    | error error =>
      rw [hd] at hdecided
      cases hdecided
    | ok d =>
      rw [hd] at hdecided
      have hallowed : d.allowed = false := Option.some.inj hdecided
      obtain ⟨governing, hgoverns, -, -, hmessages⟩ := hdenied limiter.settings limiter.whitelist
        (request caller) 60000 Unit answer () d hd hallowed
      have hrule : governing = rule := List.mem_singleton.1 (RuleSet.mem_of_mem_resolve hgoverns)
      rw [told, hd]
      exact hmessages template hplain (hrule ▸ hmessage)
  refine ⟨hbuild, hplain, hmessage, ?_, ?_⟩
  · have hhas : ¬ template.LackedBy (request (some "\x7btenantId\x7d")) := by
      rintro (⟨-, hnone⟩ | ⟨htenant, -⟩)
      · cases hnone
      · exact absurd htenant (by decide)
    rw [(htold _ (by cbv)).2 hhas]
    cbv
  · have hlacks : template.LackedBy (request none) := .inl ⟨by decide, rfl⟩
    rw [(htold _ (by cbv)).1 hlacks]
    cbv

end Admission
