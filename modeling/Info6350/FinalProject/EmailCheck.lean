import Info6350.FinalProject.PasswordRule
import Info6350.Library.RegexLanguage

/-! # The email check

`Utilities.emailValid` asks a regular expression for a local part and a domain, without regard to
case.  In the bracketed domains the pattern offers `tag:content` in the place of the fourth octet
and not in the place of all four.
-/

namespace Info6350.FinalProject
open Library
open scoped Computability

/-! ## The pattern -/

namespace EmailPattern

/-- Case folding, as far as it leads to ASCII: `U+017F` folds to `s` and `U+212A` to `k`. -/
def foldCase (c : Char) : Char :=
  if c.toNat = 0x17F then 's' else if c.toNat = 0x212A then 'k' else c.toLower

/-- A class of ASCII characters under `[c]`. -/
def caseInsensitive (p : Char → Bool) (c : Char) : Bool :=
  p c || p (foldCase c) || p (foldCase c).toUpper

/-- Ranges such as `\x01-\x08`. -/
def ranges (bounds : List (ℕ × ℕ)) (c : Char) : Bool :=
  bounds.any fun b => decide (b.1 ≤ c.toNat) && decide (c.toNat ≤ b.2)

/-- The characters of an atom other than letters and digits. -/
def atomMarks : List Char := "!#$%&'*+/=?^_`\x7b|\x7d~-".toList

def atomChar : Char → Bool :=
  caseInsensitive fun c => between 'a' 'z' c || between '0' '9' c || atomMarks.contains c

/-- `[a-z0-9]`. -/
def letDig : Char → Bool := caseInsensitive fun c => between 'a' 'z' c || between '0' '9' c

/-- `[a-z0-9-]`. -/
def letDigHyphen : Char → Bool :=
  caseInsensitive fun c => between 'a' 'z' c || between '0' '9' c || c == '-'

def quotedChar : Char → Bool := caseInsensitive (ranges
  [(0x01, 0x08), (0x0b, 0x0b), (0x0c, 0x0c), (0x0e, 0x1f), (0x21, 0x21), (0x23, 0x5b),
    (0x5d, 0x7f)])

/-- What may follow a backslash. -/
def escapable : Char → Bool := caseInsensitive (ranges
  [(0x01, 0x09), (0x0b, 0x0b), (0x0c, 0x0c), (0x0e, 0x7f)])

/-- `\x21-\x5a\x53-\x7f` has the backslash and the brackets as well. -/
def contentChar : Char → Bool := caseInsensitive (ranges
  [(0x01, 0x08), (0x0b, 0x0b), (0x0c, 0x0c), (0x0e, 0x1f), (0x21, 0x5a), (0x53, 0x7f)])

def lit (c : Char) : Regex Char := .chars fun c' => c' == c

def atom : Regex Char := (Regex.chars atomChar).plus

def dotAtom : Regex Char := .seq atom (.star (.seq (lit '.') atom))

def escape : Regex Char := .seq (lit '\\') (.chars escapable)

def quotedString : Regex Char :=
  .seq (lit '"') (.seq (.star (.alt (.chars quotedChar) escape)) (lit '"'))

def label : Regex Char :=
  .seq (.chars letDig) (Regex.seq (.star (.chars letDigHyphen)) (.chars letDig)).opt

def host : Regex Char := .seq (Regex.seq label (lit '.')).plus label

/-- `25[0-5]|2[0-4][0-9]|[01]?[0-9][0-9]?`. -/
def octet : Regex Char :=
  .alt (.seq (lit '2') (.seq (lit '5') (.chars (between '0' '5'))))
    (.alt (.seq (lit '2') (.seq (.chars (between '0' '4')) (.chars (between '0' '9'))))
      (.seq (Regex.chars (between '0' '1')).opt
        (.seq (.chars (between '0' '9')) (Regex.chars (between '0' '9')).opt)))

def tagContent : Regex Char :=
  .seq (.star (.chars letDigHyphen)) (.seq (.chars letDig)
    (.seq (lit ':') (Regex.alt (.chars contentChar) escape).plus))

/-- The group of the fourth octet is the one with the tag. -/
def addressLiteral : Regex Char :=
  .seq (lit '[') (.seq ((Regex.seq octet (lit '.')).times 3)
    (.seq (.alt octet tagContent) (lit ']')))

def email : Regex Char :=
  .seq (.alt dotAtom quotedString) (.seq (lit '@') (.alt host addressLiteral))

end EmailPattern

/-- `Utilities.emailValid`. -/
def emailValid (emailTf : String) : Bool := EmailPattern.email.fullMatch emailTf.toList

/-! ## Addresses -/

def Ascii (s : List Char) : Prop := ∀ c ∈ s, c.toNat < 128

instance (s : List Char) : Decidable (Ascii s) :=
  decidable_of_iff (s.all fun c => decide (c.toNat < 128)) (by simp [Ascii])

/-- Non-empty atoms between dots. -/
def DotAtom (s : List Char) : Prop := ∃ atoms : List (List Char), atoms ≠ [] ∧
  (∀ w ∈ atoms, w ≠ [] ∧ ∀ c ∈ w, c.isAlphanum ∨ c ∈ EmailPattern.atomMarks) ∧
  s = ['.'].intercalate atoms

/-- A character among `p`, or a backslash and a character among `q`. -/
def Item (p q : Char → Prop) : Language Char :=
  {s | (∃ c, s = [c] ∧ p c) ∨ ∃ c, s = ['\\', c] ∧ q c}

def Quoted (p q : Char → Prop) (s : List Char) : Prop :=
  ∃ content ∈ (Item p q)∗, s = '"' :: (content ++ ['"'])

def QuotedString : List Char → Prop := Quoted (fun c => c ≠ '"' ∧ c ≠ '\\') fun _ => True

/-- Letters, digits and hyphens, with a letter or a digit at both ends. -/
structure Label (s : List Char) : Prop where
  first : ∃ c, s.head? = some c ∧ c.isAlphanum
  last : ∃ c, s.getLast? = some c ∧ c.isAlphanum
  all : ∀ c ∈ s, c.isAlphanum ∨ c = '-'

def HostName (s : List Char) : Prop := ∃ labels : List (List Char), 2 ≤ labels.length ∧
  (∀ w ∈ labels, Label w) ∧ s = ['.'].intercalate labels

/-- The number that decimal digits write. -/
def value (s : List Char) : ℕ := s.foldl (fun n c => 10 * n + (c.toNat - '0'.toNat)) 0

structure Octet (s : List Char) : Prop where
  nonempty : s ≠ []
  length_le : s.length ≤ 3
  digits : ∀ c ∈ s, c.isDigit
  value_le : value s ≤ 255

def Bracketed (s : List Char) : List Char := '[' :: (s ++ [']'])

def IPv4Literal (s : List Char) : Prop := ∃ octets : List (List Char), octets.length = 4 ∧
  (∀ w ∈ octets, Octet w) ∧ s = Bracketed (['.'].intercalate octets)

structure Tag (s : List Char) : Prop where
  last : ∃ c, s.getLast? = some c ∧ c.isAlphanum
  all : ∀ c ∈ s, c.isAlphanum ∨ c = '-'

def TagLiteral (s : List Char) : Prop := ∃ tag content, Tag tag ∧ content ≠ [] ∧
  s = Bracketed (tag ++ ':' :: content)

/-- What is left of a text without the backslashes and the characters that they escape. -/
def unescaped : List Char → List Char
  | [] => []
  | '\\' :: _ :: s => unescaped s
  | c :: s => c :: unescaped s

structure Address (localPart domain : List Char) : Prop where
  isLocalPart : DotAtom localPart ∨ QuotedString localPart
  isDomain : HostName domain ∨ IPv4Literal domain ∨ TagLiteral domain
  noEmptyLabel : domain.head? ≠ some '[' → [] ∉ domain.splitOn '.'
  dots : localPart.head? ≠ some '"' → localPart.head? ≠ some '.' ∧
    localPart.getLast? ≠ some '.' ∧ ¬ ['.', '.'] <:+: localPart

def blanks : List Char := [' ', '\t', '\r', '\n']

/-- An address, in which white space is escaped. -/
def EmailRule (s : List Char) : Prop :=
  (∃ localPart domain, s = localPart ++ '@' :: domain ∧ Address localPart domain) ∧
    ∀ c ∈ unescaped s, c ∉ blanks

/-- Between the brackets, a tag with content in the place of the fourth octet. -/
def OctetTagLiteral (s : List Char) : Prop := ∃ octets tag content, octets.length = 3 ∧
  (∀ w ∈ octets, Octet w) ∧ Tag tag ∧ content ≠ [] ∧
  content ∈ (Item (fun c => EmailPattern.contentChar c) fun c => EmailPattern.escapable c)∗ ∧
  s = Bracketed (['.'].intercalate (octets ++ [tag ++ ':' :: content]))

/-! ## What the parts of the pattern read -/

namespace EmailPattern

theorem ascii_forall {P : Char → Prop} (h : ∀ n < 128, P (Char.ofNat n)) {c : Char}
    (hc : c.toNat < 128) : P c := Char.ofNat_toNat c ▸ h c.toNat hc

theorem letDig_eq {c : Char} (hc : c.toNat < 128) : letDig c = c.isAlphanum :=
  ascii_forall (P := fun c => letDig c = c.isAlphanum) (by decide) hc

theorem letDigHyphen_iff {c : Char} (hc : c.toNat < 128) :
    letDigHyphen c ↔ c.isAlphanum ∨ c = '-' :=
  ascii_forall (P := fun c => letDigHyphen c ↔ c.isAlphanum ∨ c = '-') (by decide) hc

theorem atomChar_iff {c : Char} (hc : c.toNat < 128) :
    atomChar c ↔ c.isAlphanum ∨ c ∈ atomMarks :=
  ascii_forall (P := fun c => atomChar c ↔ c.isAlphanum ∨ c ∈ atomMarks) (by decide +kernel) hc

theorem language_lit (c : Char) : (lit c).language = {[c]} := by
  ext s
  constructor
  · rintro ⟨c', rfl, hc⟩
    exact congrArg (fun c => [c]) (beq_iff_eq.mp hc)
  · rintro rfl
    exact ⟨c, rfl, beq_self_eq_true c⟩

theorem language_item {p : Char → Bool} :
    (Regex.alt (.chars p) escape).language = Item (fun c => p c) fun c => escapable c := by
  ext s
  rw [Regex.language_alt, Language.mem_add, escape, Regex.language_seq, language_lit]
  refine or_congr Iff.rfl ⟨?_, ?_⟩
  · rintro ⟨_, rfl, _, ⟨c, rfl, hc⟩, rfl⟩
    exact ⟨c, rfl, hc⟩
  · rintro ⟨c, rfl, hc⟩
    exact ⟨['\\'], rfl, [c], ⟨c, rfl, hc⟩, rfl⟩

theorem joined_congr {P Q : List Char → Prop} {R : List (List Char) → Prop} {s : List Char}
    (hs : Ascii s) (h : ∀ w, Ascii w → (P w ↔ Q w)) :
    (∃ words : List (List Char), R words ∧ (∀ w ∈ words, P w) ∧ s = ['.'].intercalate words) ↔
      ∃ words : List (List Char), R words ∧ (∀ w ∈ words, Q w) ∧
        s = ['.'].intercalate words := by
  refine exists_congr fun words => and_congr_right fun _ => and_congr_left ?_
  rintro rfl
  exact forall₂_congr fun w hw => h w fun c hc => hs c (mem_intercalate_of_mem hw hc)

theorem mem_dotAtom {s : List Char} (hs : Ascii s) : s ∈ dotAtom.language ↔ DotAtom s := by
  rw [dotAtom, Regex.language_seq, Regex.language_star, Regex.language_seq, language_lit,
    mem_mul_kstar_iff]
  refine joined_congr hs fun w hw => ?_
  rw [atom, Regex.mem_language_plus_chars]
  exact and_congr_right fun _ => forall₂_congr fun c hc => atomChar_iff (hw c hc)

theorem mem_quotedString {s : List Char} :
    s ∈ quotedString.language ↔ Quoted (fun c => quotedChar c) (fun c => escapable c) s := by
  rw [quotedString, Regex.language_seq, Regex.language_seq, language_lit, Regex.language_star,
    language_item, mem_singleton_mul_mul_iff]
  rfl

theorem mem_language_ended {s : List Char} :
    s ∈ (Regex.seq (.star (.chars letDigHyphen)) (.chars letDig)).language ↔
      ∃ u d, s = u ++ [d] ∧ (∀ c ∈ u, letDigHyphen c) ∧ letDig d := by
  rw [Regex.language_seq, Language.mem_mul]
  constructor
  · rintro ⟨u, hu, _, ⟨d, rfl, hd⟩, rfl⟩
    exact ⟨u, d, rfl, Regex.mem_language_star_chars.mp hu, hd⟩
  · rintro ⟨u, d, rfl, hu, hd⟩
    exact ⟨u, Regex.mem_language_star_chars.mpr hu, [d], ⟨d, rfl, hd⟩, rfl⟩

theorem mem_label {s : List Char} (hs : Ascii s) : s ∈ label.language ↔ Label s := by
  rw [label, Regex.mem_language_seq_chars]
  simp only [Regex.mem_language_opt, mem_language_ended]
  constructor
  · rintro ⟨c, v, rfl, hc, rfl | ⟨u, d, rfl, hu, hd⟩⟩
    · rw [letDig_eq (hs c List.mem_cons_self)] at hc
      exact ⟨⟨c, rfl, hc⟩, ⟨c, rfl, hc⟩, List.forall_mem_singleton.mpr (.inl hc)⟩
    · rw [letDig_eq (hs c List.mem_cons_self)] at hc
      rw [letDig_eq (hs d (by simp))] at hd
      refine ⟨⟨c, rfl, hc⟩, ⟨d, List.getLast?_concat (l := c :: u), hd⟩,
        List.forall_mem_cons.mpr ⟨.inl hc, ?_⟩⟩
      intro x hx
      rcases List.mem_append.mp hx with hx | hx
      · exact (letDigHyphen_iff (hs x (by simp [hx]))).mp (hu x hx)
      · exact .inl (List.mem_singleton.mp hx ▸ hd)
  · rintro ⟨⟨c, hfirst, hc⟩, ⟨d, hlast, hd⟩, hall⟩
    obtain ⟨v, rfl⟩ := List.head?_eq_some_iff.mp hfirst
    rw [← letDig_eq (hs c List.mem_cons_self)] at hc
    refine ⟨c, v, rfl, hc, ?_⟩
    rcases List.eq_nil_or_concat' v with rfl | ⟨u, x, rfl⟩
    · exact .inl rfl
    · obtain rfl : x = d := 
        Option.some.inj ((List.getLast?_concat (l := c :: u)).symm.trans hlast)
      rw [← letDig_eq (hs x (by simp))] at hd
      refine .inr ⟨u, x, rfl, fun y hy => ?_, hd⟩
      exact (letDigHyphen_iff (hs y (by simp [hy]))).mpr (hall y (by simp [hy]))

theorem mem_tag {s : List Char} (hs : Ascii s) :
    s ∈ (Regex.seq (.star (.chars letDigHyphen)) (.chars letDig)).language ↔ Tag s := by
  rw [mem_language_ended]
  constructor
  · rintro ⟨u, d, rfl, hu, hd⟩
    rw [letDig_eq (hs d (by simp))] at hd
    refine ⟨⟨d, List.getLast?_concat, hd⟩, fun x hx => ?_⟩
    rcases List.mem_append.mp hx with hu' | hx
    · exact (letDigHyphen_iff (hs x hx)).mp (hu x hu')
    · exact .inl (List.mem_singleton.mp hx ▸ hd)
  · rintro ⟨⟨d, hlast, hd⟩, hall⟩
    obtain ⟨u, rfl⟩ := List.getLast?_eq_some_iff.mp hlast
    rw [← letDig_eq (hs d (by simp))] at hd
    refine ⟨u, d, rfl, fun x hx => ?_, hd⟩
    exact (letDigHyphen_iff (hs x (by simp [hx]))).mpr (hall x (by simp [hx]))

theorem mem_host {s : List Char} (hs : Ascii s) : s ∈ host.language ↔ HostName s := by
  rw [host, Regex.language_seq, Regex.language_plus, Regex.language_seq, language_lit,
    mem_plus_mul_iff]
  exact joined_congr hs fun w hw => mem_label hw

theorem octet_iff {s : List Char} :
    Octet s ↔ s ≠ [] ∧ s.length ≤ 3 ∧ (∀ c ∈ s, c.isDigit) ∧ value s ≤ 255 :=
  ⟨fun ⟨hne, hlength, hdigits, hvalue⟩ => ⟨hne, hlength, hdigits, hvalue⟩,
    fun ⟨hne, hlength, hdigits, hvalue⟩ => ⟨hne, hlength, hdigits, hvalue⟩⟩

theorem eq_iff_toNat_eq {c d : Char} : c = d ↔ c.toNat = d.toNat := Char.toNat_inj.symm

theorem mem_octet {s : List Char} : s ∈ octet.language ↔ Octet s := by
  rw [octet_iff]
  simp only [octet, lit, Regex.language_alt, Language.mem_add, Regex.mem_language_seq_chars,
    Regex.mem_language_seq_opt, Regex.mem_language_opt, Regex.mem_language_chars, beq_iff_eq,
    eq_iff_toNat_eq, between_iff, Char.isDigit_iff_toNat]
  rcases s with _ | ⟨a, _ | ⟨b, _ | ⟨c, _ | ⟨d, s⟩⟩⟩⟩
  · simp
  · simp [value]
    omega
  · simp [value]
    omega
  · simp [value]
    omega
  · simp

theorem mem_tagContent {s : List Char} (hs : Ascii s) : s ∈ tagContent.language ↔
    ∃ tag content, Tag tag ∧ content ≠ [] ∧
      content ∈ (Item (fun c => contentChar c) fun c => escapable c)∗ ∧
      s = tag ++ ':' :: content := by
  have hitem : [] ∉ Item (fun c => contentChar c) fun c => escapable c := by
    rintro (⟨c, h, -⟩ | ⟨c, h, -⟩) <;> cases h
  rw [tagContent, Regex.language_seq, Regex.language_seq, ← mul_assoc, ← Regex.language_seq,
    Language.mem_mul]
  simp only [lit, Regex.mem_language_seq_chars, Regex.language_plus, language_item,
    mem_mul_kstar_self_iff hitem, beq_iff_eq]
  constructor
  · rintro ⟨tag, htag, _, ⟨_, content, rfl, rfl, hne, hcontent⟩, rfl⟩
    exact ⟨tag, content, (mem_tag fun c hc => hs c (List.mem_append_left _ hc)).mp htag, hne,
      hcontent, rfl⟩
  · rintro ⟨tag, content, htag, hne, hcontent, rfl⟩
    exact ⟨tag, (mem_tag fun c hc => hs c (List.mem_append_left _ hc)).mpr htag, _,
      ⟨':', content, rfl, rfl, hne, hcontent⟩, rfl⟩

theorem mem_addressLiteral {s : List Char} (hs : Ascii s) :
    s ∈ addressLiteral.language ↔ IPv4Literal s ∨ OctetTagLiteral s := by
  have hlast : ∀ {words : List (List Char)} {v : List Char},
      Ascii (Bracketed (['.'].intercalate (words ++ [v]))) → Ascii v := fun h c hc =>
    h c (List.mem_cons_of_mem _ (List.mem_append_left _
      (mem_intercalate_of_mem (List.mem_append_right _ (List.mem_singleton_self _)) hc)))
  rw [addressLiteral, Regex.language_seq, Regex.language_seq, Regex.language_times,
    Regex.language_seq, Regex.language_seq, Regex.language_alt, language_lit, language_lit,
    language_lit, ← mul_assoc _ _ {[']']}, mem_singleton_mul_mul_iff, mul_add]
  simp only [Language.mem_add, mem_pow_mul_self_iff, mem_pow_mul_iff, mem_octet]
  constructor
  · rintro ⟨_, ⟨octets, hlength, hoctets, rfl⟩ | ⟨octets, v, hlength, hoctets, hv, rfl⟩, rfl⟩
    · exact .inl ⟨octets, hlength, hoctets, rfl⟩
    · obtain ⟨tag, content, htag, hne, hcontent, rfl⟩ := (mem_tagContent (hlast hs)).mp hv
      exact .inr ⟨octets, tag, content, hlength, hoctets, htag, hne, hcontent, rfl⟩
  · rintro (⟨octets, hlength, hoctets, rfl⟩ |
      ⟨octets, tag, content, hlength, hoctets, htag, hne, hcontent, rfl⟩)
    · exact ⟨_, .inl ⟨octets, hlength, hoctets, rfl⟩, rfl⟩
    · refine ⟨_, .inr ⟨octets, _, hlength, hoctets, ?_, rfl⟩, rfl⟩
      exact (mem_tagContent (hlast hs)).mpr ⟨tag, content, htag, hne, hcontent, rfl⟩

end EmailPattern

/-! ## What the check accepts -/

def AcceptedLocalPart (s : List Char) : Prop :=
  DotAtom s ∨ Quoted (fun c => EmailPattern.quotedChar c) (fun c => EmailPattern.escapable c) s

theorem mem_localPart {s : List Char} (hs : Ascii s) :
    s ∈ (Regex.alt EmailPattern.dotAtom EmailPattern.quotedString).language ↔
      AcceptedLocalPart s :=
  or_congr (EmailPattern.mem_dotAtom hs) EmailPattern.mem_quotedString

theorem mem_domain {s : List Char} (hs : Ascii s) :
    s ∈ (Regex.alt EmailPattern.host EmailPattern.addressLiteral).language ↔
      HostName s ∨ IPv4Literal s ∨ OctetTagLiteral s :=
  or_congr (EmailPattern.mem_host hs) (EmailPattern.mem_addressLiteral hs)

theorem emailValid_iff {emailTf : String} (hascii : Ascii emailTf.toList) :
    emailValid emailTf ↔ ∃ localPart domain, emailTf.toList = localPart ++ '@' :: domain ∧
      AcceptedLocalPart localPart ∧
      (HostName domain ∨ IPv4Literal domain ∨ OctetTagLiteral domain) := by
  have hparts : ∀ {l d : List Char}, emailTf.toList = l ++ '@' :: d → Ascii l ∧ Ascii d :=
    fun h => ⟨fun c hc => hascii c (h ▸ List.mem_append_left _ hc),
      fun c hc => hascii c (h ▸ List.mem_append_right _ (List.mem_cons_of_mem _ hc))⟩
  rw [emailValid, Regex.fullMatch_iff_mem_language rfl, EmailPattern.email, Regex.language_seq,
    Language.mem_mul]
  simp only [EmailPattern.lit, Regex.mem_language_seq_chars, beq_iff_eq]
  constructor
  · rintro ⟨l, hl, _, ⟨_, d, rfl, rfl, hd⟩, h⟩
    obtain ⟨hasciil, hasciid⟩ := hparts h.symm
    exact ⟨l, d, h.symm, (mem_localPart hasciil).mp hl, (mem_domain hasciid).mp hd⟩
  · rintro ⟨l, d, h, hl, hd⟩
    obtain ⟨hasciil, hasciid⟩ := hparts h
    exact ⟨l, (mem_localPart hasciil).mpr hl, _, ⟨'@', d, rfl, rfl, (mem_domain hasciid).mpr hd⟩,
      h.symm⟩

section Characters
variable {s : List Char} {c : Char}

theorem DotAtom.notMem (hs : DotAtom s)
    (hc : (c.isAlphanum || EmailPattern.atomMarks.contains c || c == '.') = false) : c ∉ s := by
  obtain ⟨atoms, -, hatoms, rfl⟩ := hs
  intro hmem
  rcases eq_or_mem_of_mem_intercalate hmem with rfl | ⟨w, hw, hmem⟩
  · cases hc
  · have hclass := (hatoms w hw).2 c hmem
    simp_all

theorem HostName.notMem (hs : HostName s)
    (hc : (c.isAlphanum || c == '-' || c == '.') = false) : c ∉ s := by
  obtain ⟨labels, -, hlabels, rfl⟩ := hs
  intro hmem
  rcases eq_or_mem_of_mem_intercalate hmem with rfl | ⟨w, hw, hmem⟩
  · cases hc
  · have hclass := (hlabels w hw).all c hmem
    simp_all

theorem IPv4Literal.notMem (hs : IPv4Literal s)
    (hc : (c.isDigit || c == '.' || c == '[' || c == ']') = false) : c ∉ s := by
  obtain ⟨octets, -, hoctets, rfl⟩ := hs
  intro hmem
  have hbrackets : c ≠ '[' ∧ c ≠ ']' := by
    constructor <;> rintro rfl <;> cases hc
  have hmem : c ∈ ['.'].intercalate octets := by simpa [Bracketed, hbrackets] using hmem
  rcases eq_or_mem_of_mem_intercalate hmem with rfl | ⟨w, hw, hmem⟩
  · cases hc
  · have hclass := (hoctets w hw).digits c hmem
    simp_all

theorem not_blank_of_notMem (h : ∀ b ∈ blanks, b ∉ s) : ∀ c ∈ s, c ∉ blanks :=
  fun c hc hb => h c hb hc

end Characters

section Unescaped
variable {s t : List Char}

theorem unescaped_cons {c : Char} (hc : c ≠ '\\') : unescaped (c :: s) = c :: unescaped s := by
  cases s <;> simp [unescaped, hc]

theorem unescaped_append (hs : '\\' ∉ s) : unescaped (s ++ t) = s ++ unescaped t := by
  induction s with
  | nil => rfl
  | cons c s ih =>
    obtain ⟨hc, hs⟩ := List.ne_and_not_mem_of_not_mem_cons hs
    rw [List.cons_append, unescaped_cons hc.symm, ih hs, List.cons_append]

theorem unescaped_items {p q : Char → Prop} (hp : ∀ c, p c → c ≠ '\\') (hs : s ∈ (Item p q)∗) :
    ∃ w, (∀ c ∈ w, p c) ∧ ∀ t, unescaped (s ++ t) = w ++ unescaped t := by
  obtain ⟨items, rfl, hitems⟩ := Language.mem_kstar.mp hs
  clear hs
  induction items with
  | nil => exact ⟨[], fun c hc => absurd hc List.not_mem_nil, fun t => rfl⟩
  | cons i items ih =>
    obtain ⟨hi, hrest⟩ := List.forall_mem_cons.mp hitems
    obtain ⟨w, hw, hrest⟩ := ih hrest
    rcases hi with ⟨c, rfl, hc⟩ | ⟨c, rfl, -⟩
    · refine ⟨c :: w, List.forall_mem_cons.mpr ⟨hc, hw⟩, fun t => ?_⟩
      rw [List.flatten_cons, List.append_assoc, List.singleton_append, unescaped_cons (hp c hc),
        hrest, List.cons_append]
    · refine ⟨w, hw, fun t => ?_⟩
      rw [← hrest t]
      rfl

theorem quotedChar_not_blank {c : Char} (hc : EmailPattern.quotedChar c) : c ∉ blanks := by
  intro hb
  revert hc
  fin_cases hb <;> decide

theorem AcceptedLocalPart.unescaped (hs : AcceptedLocalPart s) :
    ∃ w, (∀ c ∈ w, c ∉ blanks) ∧ ∀ t, unescaped (s ++ t) = w ++ FinalProject.unescaped t := by
  rcases hs with hs | ⟨content, hcontent, rfl⟩
  · refine ⟨s, not_blank_of_notMem fun b hb => hs.notMem ?_, fun t =>
      unescaped_append (hs.notMem (by decide))⟩
    fin_cases hb <;> decide
  · obtain ⟨w, hw, hunescaped⟩ := unescaped_items
      (by rintro c hc rfl; revert hc; decide) hcontent
    refine ⟨'"' :: (w ++ ['"']), ?_, fun t => ?_⟩
    · intro c hc
      rcases List.mem_cons.mp hc with rfl | hc
      · decide
      · rcases List.mem_append.mp hc with hc | hc
        · exact quotedChar_not_blank (hw c hc)
        · obtain rfl := List.mem_singleton.mp hc
          decide
    · rw [List.cons_append, List.append_assoc, unescaped_cons (by decide), hunescaped,
        unescaped_append (by decide)]
      simp

end Unescaped

theorem QuotedString.of_quoted {s : List Char}
    (hs : Quoted (fun c => EmailPattern.quotedChar c) (fun c => EmailPattern.escapable c) s) :
    QuotedString s := by
  obtain ⟨content, hcontent, rfl⟩ := hs
  obtain ⟨items, rfl, hitems⟩ := Language.mem_kstar.mp hcontent
  refine ⟨_, Language.join_mem_kstar fun i hi => ?_, rfl⟩
  rcases hitems i hi with ⟨c, rfl, hc⟩ | ⟨c, rfl, -⟩
  · refine .inl ⟨c, rfl, ?_, ?_⟩ <;> rintro rfl <;> revert hc <;> decide
  · exact .inr ⟨c, rfl, trivial⟩

theorem AcceptedLocalPart.isLocalPart {s : List Char} (hs : AcceptedLocalPart s) :
    DotAtom s ∨ QuotedString s := hs.imp_right QuotedString.of_quoted

theorem HostName.notMem_splitOn {d : List Char} (hd : HostName d) : [] ∉ d.splitOn '.' := by
  obtain ⟨labels, hlength, hlabels, rfl⟩ := hd
  rw [List.splitOn_intercalate '.' ?_ (by rintro rfl; cases hlength)]
  · intro hnil
    obtain ⟨c, hc, -⟩ := (hlabels [] hnil).first
    cases hc
  · intro w hw hdot
    have hclass := (hlabels w hw).all '.' hdot
    revert hclass
    decide

theorem emailRule_of_domain {l d : List Char} (hl : AcceptedLocalPart l)
    (hd : HostName d ∨ IPv4Literal d) : EmailRule (l ++ '@' :: d) := by
  refine ⟨⟨l, d, rfl, hl.isLocalPart, hd.imp_right .inl, fun hhead => ?_, fun hhead => ?_⟩, ?_⟩
  · rcases hd with hd | ⟨octets, -, -, rfl⟩
    · exact hd.notMem_splitOn
    · exact absurd rfl hhead
  · rcases hl with ⟨atoms, hne, hatoms, rfl⟩ | ⟨content, -, rfl⟩
    · refine intercalate_separators hne fun w hw => ⟨(hatoms w hw).1, fun hdot => ?_⟩
      have hclass := (hatoms w hw).2 '.' hdot
      revert hclass
      decide
    · exact absurd rfl hhead
  · have hplain : '\\' ∉ d := hd.elim (·.notMem (by decide)) (·.notMem (by decide))
    have hblank : ∀ c ∈ d, c ∉ blanks := not_blank_of_notMem fun b hb => by
      rcases hd with hd | hd <;> refine hd.notMem ?_ <;> fin_cases hb <;> decide
    obtain ⟨w, hw, hunescaped⟩ := hl.unescaped
    rw [hunescaped, unescaped_cons (by decide), ← List.append_nil d, unescaped_append hplain]
    intro c hc
    rcases List.mem_append.mp hc with hc | hc
    · exact hw c hc
    · rcases List.mem_cons.mp hc with rfl | hc
      · decide
      · exact hblank c (by simpa [unescaped] using hc)

theorem prefixFree_item : PrefixFree
    (insert ['"'] (Item (fun c => c ≠ '"' ∧ c ≠ '\\') fun _ => True : Set (List Char))) := by
  rintro u (rfl | ⟨c, rfl, hc⟩ | ⟨c, rfl, -⟩) v (rfl | ⟨d, rfl, hd⟩ | ⟨d, rfl, -⟩) h <;>
    simp only [List.cons_prefix_cons, List.nil_prefix, List.prefix_nil, and_true] at h <;> grind

/-- The local part and the domain of an address can be read off in one way only. -/
theorem localPart_inj {l l' d d' : List Char} (hl : DotAtom l ∨ QuotedString l)
    (hl' : DotAtom l' ∨ QuotedString l') (h : l ++ '@' :: d = l' ++ '@' :: d') :
    l = l' ∧ d = d' := by
  have hmixed : ∀ {l d t : List Char}, DotAtom l → l ++ '@' :: d ≠ '"' :: t := by
    rintro (_ | ⟨c, l⟩) d t hl h
    · cases h
    · obtain ⟨rfl, -⟩ := List.cons.inj h
      exact hl.notMem (by decide) List.mem_cons_self
  rcases hl with hl | ⟨content, hcontent, rfl⟩ <;> rcases hl' with hl' | ⟨content', hcontent', rfl⟩
  · obtain ⟨hlocal, -, hdomain⟩ :=
      append_cons_inj (hl.notMem (by decide)) (hl'.notMem (by decide)) h
    exact ⟨hlocal, hdomain⟩
  · exact absurd h (hmixed hl)
  · exact absurd h.symm (hmixed hl')
  · obtain ⟨items, rfl, hitems⟩ := Language.mem_kstar.mp hcontent
    obtain ⟨items', rfl, hitems'⟩ := Language.mem_kstar.mp hcontent'
    have hquote : ['"'] ∉ Item (fun c => c ≠ '"' ∧ c ≠ '\\') fun _ => True := by
      rintro (⟨c, hc, hne⟩ | ⟨c, hc, -⟩)
      · exact hne.1 (List.cons.inj hc).1.symm
      · cases hc
    obtain ⟨rfl, hrest⟩ := prefixFree_item.flatten_append_inj hquote hitems hitems'
      (s := '@' :: d) (t := '@' :: d') (by simpa using h)
    exact ⟨rfl, (List.cons.inj hrest).2⟩

theorem OctetTagLiteral.not_domain {d : List Char} (hd : OctetTagLiteral d) :
    ¬ (HostName d ∨ IPv4Literal d ∨ TagLiteral d) := by
  obtain ⟨octets, tag, content, hlength, hoctets, -, -, -, rfl⟩ := hd
  have hcolon : ':' ∈ Bracketed (['.'].intercalate (octets ++ [tag ++ ':' :: content])) := by
    have hmem : ':' ∈ tag ++ ':' :: content := by simp
    exact List.mem_cons_of_mem _ (List.mem_append_left _ (mem_intercalate_of_mem (by simp) hmem))
  rintro (hd | hd | ⟨tag', content', htag', -, h⟩)
  · exact hd.notMem (by decide) hcolon
  · exact hd.notMem (by decide) hcolon
  · obtain ⟨o, octets, rfl⟩ := List.exists_cons_of_length_eq_add_one hlength
    have hcolon : ':' ∉ o := fun hc => by
      have hdigit := (hoctets o List.mem_cons_self).digits ':' hc
      revert hdigit
      decide
    have hdot : '.' ∉ tag' := fun hc => by
      have hclass := htag'.all '.' hc
      revert hclass
      decide
    have h := List.append_cancel_right (List.cons.inj h).2
    rw [List.cons_append, List.intercalate_cons_of_ne_nil (by simp), List.append_assoc] at h
    cases (append_cons_inj hcolon hdot h).2.1

/-- Three octets and a tag between the brackets, after a local part that is accepted. -/
def MisplacedTag (s : List Char) : Prop := ∃ localPart domain, s = localPart ++ '@' :: domain ∧
  AcceptedLocalPart localPart ∧ OctetTagLiteral domain

theorem MisplacedTag.not_rule {s : List Char} (hs : MisplacedTag s) : ¬ EmailRule s := by
  obtain ⟨l, d, rfl, hl, hd⟩ := hs
  rintro ⟨⟨l', d', h, haddress⟩, -⟩
  obtain ⟨rfl, rfl⟩ := localPart_inj hl.isLocalPart haddress.isLocalPart h
  exact hd.not_domain haddress.isDomain

/-- An ASCII text meets the rule whenever it is accepted, if and only if it is none of the
addresses with a tag behind three octets. -/
theorem emailValid_rule_iff {emailTf : String} (hascii : Ascii emailTf.toList) :
    (emailValid emailTf = true → EmailRule emailTf.toList) ↔ ¬ MisplacedTag emailTf.toList := by
  rw [emailValid_iff hascii]
  constructor
  · intro hrule htag
    have ⟨l, d, h, hl, hd⟩ := htag
    exact htag.not_rule (hrule ⟨l, d, h, hl, .inr (.inr hd)⟩)
  · rintro hkind ⟨l, d, h, hl, hhost | hoctets | htag⟩
    · exact h ▸ emailRule_of_domain hl (.inl hhost)
    · exact h ▸ emailRule_of_domain hl (.inr hoctets)
    · exact absurd ⟨l, d, h, hl, htag⟩ hkind

/-- An address with the tag behind three octets is accepted. -/
theorem emailValid_octetTag :
    ¬ (emailValid "a@[1.2.3.x:y]" = true → EmailRule "a@[1.2.3.x:y]".toList) := by
  have htag : MisplacedTag "a@[1.2.3.x:y]".toList := by
    have hlocal : DotAtom ['a'] := ⟨[['a']], by decide, List.forall_mem_singleton.mpr
      ⟨by decide, List.forall_mem_singleton.mpr (.inl rfl)⟩, rfl⟩
    have htag : Tag ['x'] := ⟨⟨'x', rfl, rfl⟩, List.forall_mem_singleton.mpr (.inl rfl)⟩
    refine ⟨['a'], "[1.2.3.x:y]".toList, by decide, .inl hlocal, [['1'], ['2'], ['3']], ['x'],
      ['y'], rfl, ?_, htag, by decide, ?_, by decide⟩
    · intro w hw
      fin_cases hw <;>
        exact ⟨by decide, by decide, List.forall_mem_singleton.mpr rfl, by decide⟩
    · exact Language.mem_kstar.mpr ⟨[['y']], rfl,
        List.forall_mem_singleton.mpr (.inl ⟨'y', rfl, by decide⟩)⟩
  exact fun h => htag.not_rule (h (by decide))

theorem emailValid_rule_iff_raj :
    (emailValid "raj@example.com" = true → EmailRule "raj@example.com".toList) ↔
      ¬ MisplacedTag "raj@example.com".toList :=
  @emailValid_rule_iff "raj@example.com" (by decide)

example : emailValid "raj@[192.168.1.12]" = true ∧ emailValid "a@[IPv6:y]" = false := by decide

end Info6350.FinalProject
