/-
Tags read off a text, and their nesting.

That the tags of a page nest is said of the text of the page, and so the tags have to be read
off it.  The reader goes through the text character by character, as a browser does: a bracket
before a letter opens a tag, whose name ends at a blank, a slash or a bracket; what stands
between quotes belongs to the value of an attribute; and a slash before the last bracket
closes the tag at once.  A text that breaks off within a tag, or in which a tag that closes
has no name or has something behind it, has no tags at all (`tags?`).  The tags that are read
have to nest: each that closes an element closes the one that was opened last and is still
open.  An `input` is never open.

    isWellNested s ↔ the tags of s can be read, and nest

This is a function that can be computed, and for proofs it is taken apart into two relations.
`Reads` says where a text takes the reader, from one place to another and past which tags, and
texts are read one after another:

    Reads p s q ts → Reads q t r us → Reads p (s ++ t) r (ts ++ us)

`Nested` says that a text nests by itself, whatever is open around it, and such texts can be
put one behind another and between the tags of an element (`Nested.append`, `Nested.enclose`).
So the markup of a page is proved to nest along the lines on which it is written.

Two sorts of texts come up everywhere.  A quiet text has no bracket and no double quote; it
brings no tag as content and ends no value.  A name of markup has letters, digits and hyphens
alone, and a letter in front.

The reader knows no comments, and takes the content of a text area for markup as it takes all
content; a text that is escaped has no tags in either reading.
-/

namespace WebForm.Markup

/-- A tag as it is read. -/
inductive Tag where
  | opening (name : String)
  /-- A tag that closes itself. -/
  | alone (name : String)
  | closing (name : String)
deriving DecidableEq

/-! ## The reader

A reader is in one of eight places.  From each of them a character takes it to the next, past
a tag if the character ends one, or shows that the text is no markup. -/

/-- Where a reader is. -/
inductive Place where
  | text
  /-- Behind a bracket, which opens a tag if a letter or a slash follows. -/
  | bracket
  /-- Within the name of a tag that opens. -/
  | name (soFar : List Char)
  /-- Behind the name, among the attributes. -/
  | inside (name : String)
  /-- Within the value of an attribute. -/
  | quoted (name : String) (quote : Char)
  /-- Behind a slash among the attributes. -/
  | slash (name : String)
  /-- Within the name of a tag that closes. -/
  | ending (soFar : List Char)
  /-- Behind a blank after that name. -/
  | ended (name : String)
deriving DecidableEq

/-- A blank in a tag. -/
def isTagBlank (c : Char) : Bool := c = ' ' || c = '\t' || c = '\n' || c = '\x0c' || c = '\r'

/-- Reads a character among the attributes of a tag. -/
def stepInside (name : String) (c : Char) : Place × List Tag :=
  if c = '>' then (.text, [.opening name])
  else if c = '/' then (.slash name, [])
  else if c = '"' || c = '\'' then (.quoted name c, [])
  else (.inside name, [])

/-- Reads a character: where the reader is then, and the tag that it has read. -/
def step : Place → Char → Option (Place × List Tag)
  | .text, c => some (if c = '<' then .bracket else .text, [])
  | .bracket, c =>
    if c.isAlpha then some (.name [c], [])
    else if c = '/' then some (.ending [], [])
    else some (if c = '<' then .bracket else .text, [])
  | .name cs, c =>
    if isTagBlank c || c = '/' || c = '>' then some (stepInside (String.ofList cs) c)
    else some (.name (cs ++ [c]), [])
  | .inside name, c => some (stepInside name c)
  | .quoted name quote, c => some (if c = quote then .inside name else .quoted name quote, [])
  | .slash name, c => some (if c = '>' then (.text, [.alone name]) else stepInside name c)
  | .ending cs, c =>
    if !isTagBlank c && c != '>' then some (.ending (cs ++ [c]), [])
    else if cs = [] then none
    else if c = '>' then some (.text, [.closing (String.ofList cs)])
    else some (.ended (String.ofList cs), [])
  | .ended name, c =>
    if c = '>' then some (.text, [.closing name])
    else if isTagBlank c then some (.ended name, [])
    else none

/-- Reads characters: where the reader is then, and the tags that it has read. -/
def run (p : Place) : List Char → Option (Place × List Tag)
  | [] => some (p, [])
  | c :: cs => (step p c).bind fun r => (run r.1 cs).map fun q => (q.1, r.2 ++ q.2)

/-- The tags of a text, if it ends behind the last of them. -/
def tags? (s : String) : Option (List Tag) :=
  match run .text s.toList with
  | some (.text, ts) => some ts
  | _ => none

/-! ## Nesting -/

/-- The elements that are open after some tags, the innermost first, if each tag that closes an
element closes the innermost. -/
def nest : List String → List Tag → Option (List String)
  | stack, [] => some stack
  | stack, .opening n :: ts => nest (if n = "input" then stack else n :: stack) ts
  | stack, .alone _ :: ts => nest stack ts
  | n :: stack, .closing m :: ts => if n = m then nest stack ts else none
  | [], .closing _ :: _ => none

/-- Every tag of the text that opens an element is closed by a tag of its own, in nested order, and
nothing else is closed. -/
def isWellNested (s : String) : Bool := (tags? s).bind (nest []) == some []

/-! ## Texts one after another -/

/-- From one place, a text takes the reader to another, past some tags. -/
abbrev Reads (p : Place) (s : String) (q : Place) (ts : List Tag) : Prop :=
  run p s.toList = some (q, ts)

theorem run_append (p : Place) (cs ds : List Char) :
    run p (cs ++ ds) = (run p cs).bind fun r => (run r.1 ds).map fun q => (q.1, r.2 ++ q.2) := by
  induction cs generalizing p with
  | nil => simp [run]
  | cons c cs ih =>
      simp only [List.cons_append, run]
      cases step p c with
      | none => rfl
      | some r =>
          simp only [Option.bind_some, ih]
          cases run r.1 cs with
          | none => rfl
          | some q => simp [Function.comp_def]

namespace Reads

variable {p q r : Place} {s t : String} {ts us : List Tag}

theorem append (hs : Reads p s q ts) (ht : Reads q t r us) : Reads p (s ++ t) r (ts ++ us) := by
  unfold Reads
  rw [String.toList_append, run_append, hs, Option.bind_some, ht]
  rfl

theorem cons (hs : Reads p s q []) (ht : Reads q t r us) : Reads p (s ++ t) r us := hs.append ht

theorem of_stays (h : ∀ c ∈ s.toList, step p c = some (p, [])) : Reads p s p [] := by
  unfold Reads
  generalize s.toList = cs at h
  induction cs with
  | nil => rfl
  | cons c cs ih =>
      obtain ⟨hc, hcs⟩ := List.forall_mem_cons.mp h
      simp only [run, hc, Option.bind_some, ih hcs]
      rfl

end Reads

/-! ## Texts without meaning to the reader -/

/-- A character other than the brackets and the double quote. -/
def isQuietChar (c : Char) : Bool := c != '<' && c != '>' && c != '"'

/-- A text without brackets and double quotes. -/
def isQuiet (s : String) : Bool := s.toList.all isQuietChar

theorem isQuiet_append {s t : String} (hs : isQuiet s = true) (ht : isQuiet t = true) :
    isQuiet (s ++ t) = true := by
  simp only [isQuiet, String.toList_append, List.all_append, Bool.and_eq_true] at *
  exact ⟨hs, ht⟩

theorem ne_of_isQuiet {s : String} (h : isQuiet s = true) {c : Char} (hc : c ∈ s.toList) :
    c ≠ '<' ∧ c ≠ '>' ∧ c ≠ '"' := by
  have hquiet := List.all_eq_true.mp h c hc
  simp only [isQuietChar, Bool.and_eq_true, bne_iff_ne, and_assoc] at hquiet
  exact hquiet

theorem Reads.text {s : String} (h : isQuiet s = true) : Reads .text s .text [] := by
  apply Reads.of_stays
  intro c hc
  simp [step, (ne_of_isQuiet h hc).1]

theorem Reads.value {s : String} (h : isQuiet s = true) (name : String) :
    Reads (.quoted name '"') s (.quoted name '"') [] := by
  apply Reads.of_stays
  intro c hc
  simp [step, (ne_of_isQuiet h hc).2.2]

/-! ## Names

Names are the only texts that are read within a tag and outside of quotes, and nothing in them
can end the tag.  So the pieces of a tag are read by its name and its attributes, one lemma
for each way in which they follow one another. -/

/-- A character of a name in markup. -/
def isNameChar (c : Char) : Bool := c.isAlphanum || c = '-'

/-- A name in markup: a letter, and then letters, digits and hyphens. -/
def isMarkupName (s : String) : Bool :=
  match s.toList with
  | [] => false
  | c :: cs => c.isAlpha && cs.all isNameChar

theorem ne_of_isNameChar {c : Char} (h : isNameChar c = true) {d : Char}
    (hd : isNameChar d = false) : c ≠ d := by
  rintro rfl
  rw [h] at hd
  cases hd

theorem isNameChar_of_mem {s : String} (h : isMarkupName s = true) {c : Char} (hc : c ∈ s.toList) :
    isNameChar c = true := by
  unfold isMarkupName at h
  split at h
  · cases h
  · rename_i d ds hs
    rw [Bool.and_eq_true, List.all_eq_true] at h
    rw [hs] at hc
    rcases List.mem_cons.mp hc with rfl | hc
    · simp [isNameChar, Char.isAlphanum, h.1]
    · exact h.2 c hc

theorem isQuiet_of_isMarkupName {s : String} (h : isMarkupName s = true) : isQuiet s = true := by
  apply List.all_eq_true.mpr
  intro c hc
  have hname := isNameChar_of_mem h hc
  simp [isQuietChar, ne_of_isNameChar hname (d := '<') rfl, ne_of_isNameChar hname (d := '>') rfl,
    ne_of_isNameChar hname (d := '"') rfl]

theorem not_ends_of_isNameChar {c : Char} (h : isNameChar c = true) :
    isTagBlank c = false ∧ c ≠ '/' ∧ c ≠ '>' := by
  refine ⟨?_, ne_of_isNameChar h rfl, ne_of_isNameChar h rfl⟩
  simp [isTagBlank, ne_of_isNameChar h (d := ' ') rfl, ne_of_isNameChar h (d := '\t') rfl,
    ne_of_isNameChar h (d := '\n') rfl, ne_of_isNameChar h (d := '\x0c') rfl,
    ne_of_isNameChar h (d := '\r') rfl]

theorem run_name {cs : List Char} (h : ∀ c ∈ cs, isNameChar c = true) (soFar : List Char) :
    run (.name soFar) cs = some (.name (soFar ++ cs), []) := by
  induction cs generalizing soFar with
  | nil => simp [run]
  | cons c cs ih =>
      obtain ⟨hc, hcs⟩ := List.forall_mem_cons.mp h
      obtain ⟨hblank, hslash, hbracket⟩ := not_ends_of_isNameChar hc
      simp [run, step, hblank, hslash, hbracket, ih hcs]

theorem run_ending {cs : List Char} (h : ∀ c ∈ cs, isNameChar c = true) (soFar : List Char) :
    run (.ending soFar) cs = some (.ending (soFar ++ cs), []) := by
  induction cs generalizing soFar with
  | nil => simp [run]
  | cons c cs ih =>
      obtain ⟨hc, hcs⟩ := List.forall_mem_cons.mp h
      obtain ⟨hblank, _, hbracket⟩ := not_ends_of_isNameChar hc
      simp [run, step, hblank, hbracket, ih hcs]

namespace Reads

variable {s : String}

theorem openName (h : isMarkupName s = true) : Reads .text ("<" ++ s) (.name s.toList) [] := by
  have hchars := fun c hc => isNameChar_of_mem h (c := c) hc
  unfold isMarkupName at h
  unfold Reads
  rw [String.toList_append]
  split at h
  · cases h
  · rename_i c cs hs
    rw [Bool.and_eq_true] at h
    rw [hs] at hchars ⊢
    simp [run, step, h.1, run_name (List.forall_mem_cons.mp hchars).2]

theorem inner (h : isMarkupName s = true) (name : String) :
    Reads (.inside name) s (.inside name) [] := by
  apply Reads.of_stays
  intro c hc
  have hname := isNameChar_of_mem h hc
  simp [step, stepInside, ne_of_isNameChar hname (d := '>') rfl,
    ne_of_isNameChar hname (d := '/') rfl, ne_of_isNameChar hname (d := '"') rfl,
    ne_of_isNameChar hname (d := '\'') rfl]

theorem close (h : isMarkupName s = true) : Reads .text ("</" ++ s ++ ">") .text [.closing s] := by
  have hne : s.toList ≠ [] := by
    intro hnil
    unfold isMarkupName at h
    rw [hnil] at h
    cases h
  have hname : Reads (.ending []) s (.ending s.toList) [] :=
    run_ending (fun c hc => isNameChar_of_mem h hc) []
  have hstart : Reads .text "</" (.ending []) [] := rfl
  have hend : Reads (.ending s.toList) ">" .text [.closing s] := by
    change run (.ending s.toList) ['>'] = _
    simp [run, step, hne]
  exact (hstart.cons hname).cons hend

theorem around {p q : Place} {before after : String} {ts : List Tag} (name : String)
    (hbefore : Reads p before (.quoted name '"') []) (hquiet : isQuiet s = true)
    (hafter : Reads (.quoted name '"') after q ts) : Reads p (before ++ s ++ after) q ts :=
  (hbefore.cons (Reads.value hquiet name)).cons hafter

theorem valued (hkey : isMarkupName s = true) {v : String} (hv : isQuiet v = true) (name : String) :
    Reads (.inside name) (" " ++ s ++ "=\x22" ++ v ++ "\x22") (.inside name) [] := by
  have hblank : Reads (.inside name) " " (.inside name) [] := rfl
  have hopen : Reads (.inside name) "=\x22" (.quoted name '"') [] := rfl
  have hclose : Reads (.quoted name '"') "\x22" (.inside name) [] := rfl
  exact around name ((hblank.cons (inner hkey name)).cons hopen) hv hclose

theorem ofName {t : String} {q : Place} {ts : List Tag} (hblank : t.toList.head? = some ' ')
    (h : Reads (.inside s) t q ts) : Reads (.name s.toList) t q ts := by
  unfold Reads at h ⊢
  cases ht : t.toList with
  | nil =>
      rw [ht] at hblank
      cases hblank
  | cons c cs =>
      rw [ht] at hblank h
      obtain rfl := Option.some.inj hblank
      rw [← h]
      simp [run, step, isTagBlank]

theorem start (h : isMarkupName s = true) {t : String} (hblank : t.toList.head? = some ' ')
    (ht : Reads (.inside s) t (.inside s) []) : Reads .text ("<" ++ s ++ t) (.inside s) [] :=
  (openName h).cons (ofName hblank ht)

theorem openBare (h : isMarkupName s = true) : Reads .text ("<" ++ s ++ ">") .text [.opening s] := by
  have hend : Reads (.name s.toList) ">" .text [.opening s] := by
    change run (.name s.toList) ['>'] = _
    simp [run, step, stepInside]
  exact (openName h).cons hend

end Reads

/-! ## Texts that nest by themselves

What is open around a text is not touched by it, and stays open behind it. -/

theorem nest_append (stack : List String) (ts us : List Tag) :
    nest stack (ts ++ us) = (nest stack ts).bind fun stack => nest stack us := by
  induction ts generalizing stack with
  | nil => rfl
  | cons t ts ih =>
      cases t with
      | opening n => simp [nest, ih]
      | alone n => simp [nest, ih]
      | closing n =>
          cases stack with
          | nil => rfl
          | cons m stack =>
              simp only [List.cons_append, nest]
              split
              · exact ih stack
              · rfl

/-- Tags that nest do so within elements that are open already, which they leave open. -/
theorem nest_under {stack stack' : List String} {ts : List Tag} (h : nest stack ts = some stack')
    (outer : List String) : nest (stack ++ outer) ts = some (stack' ++ outer) := by
  induction ts generalizing stack with
  | nil =>
      cases h
      rfl
  | cons t ts ih =>
      cases t with
      | opening n =>
          simp only [nest] at h ⊢
          rw [← ih h]
          split <;> rfl
      | alone n => exact ih h
      | closing n =>
          cases stack with
          | nil => cases h
          | cons m stack =>
              simp only [nest, List.cons_append] at h ⊢
              split at h
              · rename_i heq
                rw [if_pos heq]
                exact ih h
              · cases h

/-- The tags of the text nest by themselves, whatever is open around it. -/
def Nested (s : String) : Prop :=
  ∃ ts, Reads .text s .text ts ∧ ∀ stack, nest stack ts = some stack

theorem isWellNested_iff {s : String} : isWellNested s = true ↔ Nested s := by
  unfold isWellNested tags?
  constructor
  · intro h
    split at h
    · rename_i ts hts
      refine ⟨ts, hts, fun stack => ?_⟩
      exact nest_under (by simpa using h) stack
    · cases h
  · rintro ⟨ts, hts, hnest⟩
    rw [hts]
    simp [hnest]

example : isWellNested "<p id='a>b'>1 < 2 <input> <br/></p>" = true := by decide +kernel

example : isWellNested "<b><i></b></i>" = false := by decide +kernel

namespace Nested

variable {s t : String} {n : String}

theorem append (hs : Nested s) (ht : Nested t) : Nested (s ++ t) := by
  obtain ⟨ts, hts, hs⟩ := hs
  obtain ⟨us, hus, ht⟩ := ht
  refine ⟨ts ++ us, hts.append hus, fun stack => ?_⟩
  rw [nest_append, hs, Option.bind_some, ht]

theorem of_isQuiet (h : isQuiet s = true) : Nested s := ⟨[], Reads.text h, fun _ => rfl⟩

/-- An element between the tags that open and close it. -/
theorem enclose {opening closing : String} (ho : Reads .text opening .text [.opening n])
    (hn : n ≠ "input") (hs : Nested s) (hc : Reads .text closing .text [.closing n]) :
    Nested (opening ++ s ++ closing) := by
  obtain ⟨ts, hts, hs⟩ := hs
  refine ⟨_, (ho.append hts).append hc, fun stack => ?_⟩
  rw [List.singleton_append, List.cons_append, nest, if_neg hn, nest_append, hs, Option.bind_some,
    nest, if_pos rfl, nest]

/-- An input, which is never open. -/
theorem input (h : Reads .text s .text [.opening "input"]) : Nested s :=
  ⟨_, h, fun _ => rfl⟩

theorem alone (h : Reads .text s .text [.alone n]) : Nested s := ⟨_, h, fun _ => rfl⟩

end Nested

end WebForm.Markup
