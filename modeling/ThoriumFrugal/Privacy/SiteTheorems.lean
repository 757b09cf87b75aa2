import ThoriumFrugal.Privacy.ThirdPartyClassifier

/-!
# Sites

The registrable domain of a host is a function of its last three labels. On hosts that are longer
than a public suffix it does not change when labels are put in front, so the hosts of one site are
those with one registrable domain. Of an address it takes the last two octets.
-/

namespace ThoriumFrugal.Privacy

open Lib

namespace ThirdPartyClassifier

/-! ## The registrable domain by labels -/

/-- The last two labels, or three where the last two are a public suffix. -/
def registrable (labels : List Text) : List Text :=
  match labels.reverse with
  | last :: second :: third :: _ =>
    if second ++ '.' :: last ∈ kTwoPartTlds then [third, second, last] else [second, last]
  | _ => labels

/-- The hosts that are their own domain whatever their labels are. -/
def specialHosts : List Text := ["localhost", "127.0.0.1", "::1"].map String.toList

theorem mem_specialHosts {host : Text} : host ∈ specialHosts
    ↔ host = "localhost".toList ∨ host = "127.0.0.1".toList ∨ host = "::1".toList := by
  simp only [specialHosts, List.map_cons, List.map_nil, List.mem_cons, List.not_mem_nil, or_false]

/-- A local host is its own domain. -/
theorem getDomain_of_special {host : Text}
    (h : Text.dropFinalDot (Text.toLower host) ∈ specialHosts) :
    getDomain host = Text.dropFinalDot (Text.toLower host) := by
  have hne : Text.toLower host ≠ [] := by
    intro hnil
    rw [hnil] at h
    exact absurd h (by decide)
  unfold getDomain
  rw [if_neg hne]
  simp only
  rw [if_pos (mem_specialHosts.mp h)]

/-- Any other host has the registrable labels. -/
theorem getDomain_of_not_special {host : Text}
    (h : Text.dropFinalDot (Text.toLower host) ∉ specialHosts) :
    getDomain host
      = Text.join ['.'] (registrable ((Text.dropFinalDot (Text.toLower host)).splitOn '.')) := by
  unfold getDomain
  by_cases hne : Text.toLower host = []
  · rw [if_pos hne, hne]
    rfl
  · rw [if_neg hne]
    simp only
    rw [if_neg (mem_specialHosts.not.mp h)]
    generalize Text.dropFinalDot (Text.toLower host) = name
    have hname : Text.join ['.'] (name.splitOn '.') = name := List.intercalate_splitOn '.'
    unfold registrable
    rcases (name.splitOn '.').reverse with _ | ⟨last, _ | ⟨second, _ | ⟨third, rest⟩⟩⟩
    case cons.cons.cons =>
      simp only
      split <;> simp [Text.join, List.intercalate_cons_cons]
    -- without a third label, the source takes the name as it is
    all_goals exact hname.symm

/-- Three labels are kept behind a known pair, and else two. -/
theorem registrable_of_reverse {labels rest : List Text} {last second third : Text}
    (h : labels.reverse = last :: second :: third :: rest) : registrable labels
      = if second ++ '.' :: last ∈ kTwoPartTlds then [third, second, last] else [second, last] := by
  unfold registrable
  rw [h]

/-- A name without a third label is its own domain. -/
theorem registrable_eq_self {labels : List Text} (h : labels.length ≤ 2) :
    registrable labels = labels := by
  rw [← List.length_reverse] at h
  unfold registrable
  rcases hrev : labels.reverse with _ | ⟨last, _ | ⟨second, _ | ⟨third, rest⟩⟩⟩
  · rfl
  · rfl
  · rfl
  · rw [hrev] at h
    simp at h

/-- There is no third label, or the domain is read off the last three. -/
theorem length_le_two_or_reverse (labels : List Text) : labels.length ≤ 2
    ∨ ∃ last second third rest, labels.reverse = last :: second :: third :: rest := by
  rw [← List.length_reverse]
  rcases labels.reverse with _ | ⟨last, _ | ⟨second, _ | ⟨third, rest⟩⟩⟩
  · simp
  · simp
  · simp
  · exact Or.inr ⟨last, second, third, rest, rfl⟩

/-- The registrable domain consists of the last labels. -/
theorem registrable_suffix (labels : List Text) : registrable labels <:+ labels := by
  rcases length_le_two_or_reverse labels with htwo | ⟨last, second, third, rest, hrev⟩
  · rw [registrable_eq_self htwo]
  · have hlabels : rest.reverse ++ [third, second, last] = labels := by
      rw [← List.reverse_reverse labels, hrev]
      simp
    rw [registrable_of_reverse hrev]
    split
    · exact ⟨rest.reverse, hlabels⟩
    · exact ⟨rest.reverse ++ [third], by simp [← hlabels]⟩

/-- The registrable domain is in lower case. -/
theorem toLower_getDomain (host : Text) : Text.toLower (getDomain host) = getDomain host := by
  have hname : Text.toLower (Text.dropFinalDot (Text.toLower host))
      = Text.dropFinalDot (Text.toLower host) := by
    refine Text.toLower_of_subset ?_ (Text.toLower_toLower host)
    unfold Text.dropFinalDot
    split
    · exact List.dropLast_subset _
    · exact List.Subset.refl _
  by_cases hspecial : Text.dropFinalDot (Text.toLower host) ∈ specialHosts
  · rw [getDomain_of_special hspecial, hname]
  · rw [getDomain_of_not_special hspecial, Text.toLower_join_dots]
    congr 1
    have hlabels : ∀ l ∈ registrable ((Text.dropFinalDot (Text.toLower host)).splitOn '.'),
        Text.toLower l = l := by
      intro l hl
      have hmem := (registrable_suffix _).subset hl
      exact Text.toLower_of_subset (Text.subset_of_mem_splitOn hmem) hname
    exact (List.map_congr_left hlabels).trans (List.map_id _)

theorem registrable_ne_nil {labels : List Text} (h : labels ≠ []) : registrable labels ≠ [] := by
  rcases length_le_two_or_reverse labels with htwo | ⟨last, second, third, rest, hrev⟩
  · rwa [registrable_eq_self htwo]
  · rw [registrable_of_reverse hrev]
    split <;> simp

/-- Never more than three labels are kept. -/
theorem length_registrable_le (labels : List Text) : (registrable labels).length ≤ 3 := by
  rcases length_le_two_or_reverse labels with htwo | ⟨last, second, third, rest, hrev⟩
  · rw [registrable_eq_self htwo]
    omega
  · rw [registrable_of_reverse hrev]
    split <;> simp

theorem registrable_pair (a b : Text) : registrable [a, b] = [a, b] := rfl

/-! ## Hosts of a site -/

/-- Lowered labels of a name of two or more, none of them empty, that is more than a public
suffix. -/
structure SiteLabels (labels : List Text) : Prop where
  two_le : 2 ≤ labels.length
  clean : ∀ l ∈ labels, '.' ∉ l ∧ l ≠ []
  not_suffix : Text.join ['.'] labels ∉ kTwoPartTlds

namespace SiteLabels

variable {labels front : List Text}

/-- Such labels are two, which are no public suffix, or three and more. -/
theorem pair_or_more (h : SiteLabels labels) : (∃ last second, labels = [second, last]
      ∧ second ++ '.' :: last ∉ kTwoPartTlds)
    ∨ ∃ last second third rest, labels.reverse = last :: second :: third :: rest := by
  rcases length_le_two_or_reverse labels with htwo | hmore
  · obtain ⟨second, last, rfl⟩ := List.length_eq_two.mp (le_antisymm htwo h.two_le)
    refine Or.inl ⟨last, second, rfl, ?_⟩
    simpa [Text.join_pair] using h.not_suffix
  · exact Or.inr hmore

/-- Labels in front do not change the registrable domain. -/
theorem registrable_append (h : SiteLabels labels) (front : List Text) :
    registrable (front ++ labels) = registrable labels := by
  rcases h.pair_or_more with ⟨last, second, rfl, hsuffix⟩ | ⟨last, second, third, rest, hrev⟩
  · -- the two labels are no public suffix, so a third one is not taken
    rw [registrable_pair]
    rcases List.eq_nil_or_concat front with rfl | ⟨front, third, rfl⟩
    · rfl
    · have hrev : (front.concat third ++ [second, last]).reverse
          = last :: second :: third :: front.reverse := by simp
      rw [registrable_of_reverse hrev, if_neg hsuffix]
  · -- the last three labels stay the last three
    have hfront : (front ++ labels).reverse
        = last :: second :: third :: (rest ++ front.reverse) := by
      rw [List.reverse_append, hrev]
      rfl
    rw [registrable_of_reverse hrev, registrable_of_reverse hfront]

/-- No name of three labels is a public suffix of the table. -/
theorem not_suffix_of_three (hclean : ∀ l ∈ labels, '.' ∉ l ∧ l ≠ []) (hthree : 3 ≤ labels.length) :
    Text.join ['.'] labels ∉ kTwoPartTlds := by
  have htwo : ∀ suffix ∈ kTwoPartTlds, (suffix.splitOn '.').length = 2 := by decide +kernel
  intro hmem
  have hlength := htwo _ hmem
  unfold Text.join at hlength
  rw [List.splitOn_intercalate '.' (fun l hl => (hclean l hl).1)
    (List.ne_nil_of_length_pos (by omega))] at hlength
  omega

/-- The registrable domain is itself such a name. -/
theorem registrable (h : SiteLabels labels) : SiteLabels (registrable labels) := by
  have hclean : ∀ l ∈ ThirdPartyClassifier.registrable labels, '.' ∉ l ∧ l ≠ [] :=
    fun l hl => h.clean l ((registrable_suffix labels).subset hl)
  rcases h.pair_or_more with ⟨last, second, rfl, hsuffix⟩ | ⟨last, second, third, rest, hrev⟩
  · exact h
  · -- three labels are never a public suffix, and two only if a third one was taken
    rw [registrable_of_reverse hrev] at hclean ⊢
    split
    · next hsuffix =>
      rw [if_pos hsuffix] at hclean
      exact ⟨by simp, hclean, not_suffix_of_three hclean (by simp)⟩
    · next hsuffix =>
      rw [if_neg hsuffix] at hclean
      exact ⟨by simp, hclean, by simpa [Text.join_pair] using hsuffix⟩

theorem ne_nil (h : SiteLabels labels) : labels ≠ [] := by
  rintro rfl
  cases h.two_le

theorem splitOn_join (h : SiteLabels labels) : (Text.join ['.'] labels).splitOn '.' = labels :=
  List.splitOn_intercalate '.' (fun l hl => (h.clean l hl).1) h.ne_nil

/-- A registrable domain is its own. -/
theorem registrable_registrable (h : SiteLabels labels) :
    ThirdPartyClassifier.registrable (ThirdPartyClassifier.registrable labels)
      = ThirdPartyClassifier.registrable labels := by
  obtain ⟨front, hfront⟩ := registrable_suffix labels
  have happend := h.registrable.registrable_append front
  rwa [hfront, eq_comm] at happend

end SiteLabels

/-! ## Addresses -/

/-- An IPv4 address. -/
structure IPv4 where
  a : Fin 256
  b : Fin 256
  c : Fin 256
  d : Fin 256
deriving DecidableEq

namespace IPv4

/-- An octet as it is written. -/
def octetText (octet : Fin 256) : Text := Nat.toDigits 10 octet

/-- The octets as they are written. -/
def octets (address : IPv4) : List Text :=
  [address.a, address.b, address.c, address.d].map octetText

/-- The dotted quad. -/
def text (address : IPv4) : Text := Text.join ['.'] address.octets

/-- `127.0.0.1` -/
def loopback : IPv4 := ⟨127, 0, 0, 1⟩

theorem text_loopback : loopback.text = "127.0.0.1".toList := by decide +kernel

theorem octets_clean (address : IPv4) : ∀ l ∈ address.octets, '.' ∉ l ∧ l ≠ [] := by
  intro l hl
  obtain ⟨octet, -, rfl⟩ := List.mem_map.mp hl
  refine ⟨fun hdot => ?_, Nat.toDigits_ne_nil⟩
  have hdigit := Nat.isDigit_of_mem_toDigits (by decide) (by decide) hdot
  cases hdigit

theorem splitOn_text (address : IPv4) : address.text.splitOn '.' = address.octets :=
  List.splitOn_intercalate '.' (fun l hl => (address.octets_clean l hl).1) (by simp [octets])

/-- An address has no letters. -/
theorem not_isAlpha_of_mem (address : IPv4) : ∀ c ∈ address.text, c.isAlpha = false := by
  intro c hc
  by_contra hletter
  refine Text.not_mem_join (c := c) ?_ (fun l hl hmem => ?_) hc
  · rw [List.mem_singleton]
    rintro rfl
    exact hletter (by decide)
  · obtain ⟨octet, -, rfl⟩ := List.mem_map.mp hl
    have hdigit := Nat.isDigit_of_mem_toDigits (by decide) (by decide) hmem
    exact hletter (Text.isAlpha_eq_false_of_isDigit hdigit)

end IPv4

/-- The host is an IPv4 literal. -/
def IsIPv4 (host : Text) : Prop := ∃ address : IPv4, host = address.text

/-- A host with a letter is no address. -/
theorem not_isIPv4_of_letter {host : Text} {c : Char} (hc : c ∈ host) (hletter : c.isAlpha = true) :
    ¬IsIPv4 host := by
  rintro ⟨address, rfl⟩
  rw [address.not_isAlpha_of_mem c hc] at hletter
  cases hletter

/-! ## Names by their labels -/

/-- A name of two labels or more is no special host, unless it is the loopback address. -/
theorem not_mem_specialHosts {labels : List Text} (htwo : 2 ≤ labels.length)
    (hipv4 : ¬IsIPv4 (Text.join ['.'] labels)) :
    Text.join ['.'] (labels.map Text.toLower) ∉ specialHosts := by
  have hdot : '.' ∈ Text.join ['.'] (labels.map Text.toLower) :=
    Text.dot_mem_join (by simpa using htwo)
  rw [mem_specialHosts]
  rintro (h | h | h)
  · rw [h] at hdot
    exact absurd hdot (by decide)
  · -- lowering changes no digit, so the name itself is the loopback address
    rw [← Text.toLower_join_dots, ← IPv4.text_loopback,
      Text.toLower_eq_iff IPv4.loopback.not_isAlpha_of_mem] at h
    exact hipv4 ⟨IPv4.loopback, h⟩
  · rw [h] at hdot
    exact absurd hdot (by decide)

/-- The domain of a host of labels that is no address. -/
theorem getDomain_join {labels : List Text} (htwo : 2 ≤ labels.length)
    (hclean : ∀ l ∈ labels, '.' ∉ l ∧ l ≠ []) (hipv4 : ¬IsIPv4 (Text.join ['.'] labels)) :
    getDomain (Text.join ['.'] labels)
      = Text.join ['.'] (registrable (labels.map Text.toLower)) := by
  have hlowered := Text.toLower_labels_clean hclean
  have hne : labels.map Text.toLower ≠ [] := by
    intro h
    rw [List.map_eq_nil_iff.mp h] at htwo
    cases htwo
  have hname : Text.dropFinalDot (Text.toLower (Text.join ['.'] labels))
      = Text.join ['.'] (labels.map Text.toLower) := by
    rw [Text.toLower_join_dots, Text.dropFinalDot_join hlowered]
  have hsplit : (Text.join ['.'] (labels.map Text.toLower)).splitOn '.'
      = labels.map Text.toLower :=
    List.splitOn_intercalate '.' (fun l hl => (hlowered l hl).1) hne
  rw [getDomain_of_not_special (hname ▸ not_mem_specialHosts htwo hipv4), hname, hsplit]

/-! ## Sites of hosts -/

/-- A host name that is longer than a public suffix: two labels or more, none of them empty, and no
IPv4 literal. -/
structure SiteHost where
  labels : List Text
  two_le : 2 ≤ labels.length
  clean : ∀ l ∈ labels, '.' ∉ l ∧ l ≠ []
  not_suffix : Text.toLower (Text.join ['.'] labels) ∉ kTwoPartTlds
  not_ipv4 : ¬IsIPv4 (Text.join ['.'] labels)

namespace SiteHost

variable (h : SiteHost)

/-- The host name. -/
def name : Text := Text.join ['.'] h.labels

theorem siteLabels : SiteLabels (h.labels.map Text.toLower) where
  two_le := by simpa using h.two_le
  clean := Text.toLower_labels_clean h.clean
  not_suffix := by
    rw [← Text.toLower_join_dots]
    exact h.not_suffix

theorem getDomain_name : getDomain h.name
    = Text.join ['.'] (registrable (h.labels.map Text.toLower)) :=
  getDomain_join h.two_le h.clean h.not_ipv4

/-- The domain of a subdomain is that of the host. -/
theorem getDomain_append {front : List Text} (hfront : ∀ l ∈ front, '.' ∉ l ∧ l ≠ [])
    (hipv4 : ¬IsIPv4 (Text.join ['.'] (front ++ h.labels))) :
    getDomain (Text.join ['.'] (front ++ h.labels)) = getDomain h.name := by
  have htwo := h.two_le
  have hclean : ∀ l ∈ front ++ h.labels, '.' ∉ l ∧ l ≠ [] := fun l hl =>
    (List.mem_append.mp hl).elim (hfront l) (h.clean l)
  rw [getDomain_join (by rw [List.length_append]; omega) hclean hipv4, List.map_append,
    h.siteLabels.registrable_append, h.getDomain_name]

/-- The domain starts where a label of the host starts. -/
theorem getDomain_suffix : getDomain h.name = Text.toLower h.name
    ∨ '.' :: getDomain h.name <:+ Text.toLower h.name := by
  obtain ⟨front, hfront⟩ := registrable_suffix (h.labels.map Text.toLower)
  have hne := h.siteLabels.registrable.ne_nil
  rw [h.getDomain_name, name, Text.toLower_join_dots]
  rcases List.eq_nil_or_concat front with rfl | ⟨front, l, rfl⟩
  · rw [List.nil_append] at hfront
    exact Or.inl (by rw [hfront])
  · have hjoin := congrArg (Text.join ['.']) hfront
    rw [Text.join_append (by simp) hne] at hjoin
    exact Or.inr ⟨Text.join ['.'] (front.concat l), by simp [← hjoin]⟩

/-- A site's domain is its own domain. -/
theorem getDomain_getDomain : getDomain (getDomain h.name) = getDomain h.name := by
  have hsite := h.siteLabels.registrable
  -- the labels of a domain are lowered already
  have hlower : (registrable (h.labels.map Text.toLower)).map Text.toLower
      = registrable (h.labels.map Text.toLower) := by
    have hsub := (registrable_suffix (h.labels.map Text.toLower)).subset
    have hmem : ∀ l ∈ registrable (h.labels.map Text.toLower), Text.toLower l = l := by
      intro l hl
      obtain ⟨raw, -, rfl⟩ := List.mem_map.mp (hsub hl)
      exact Text.toLower_toLower raw
    rw [List.map_congr_left hmem, List.map_id']
  -- an address has four labels, a domain at most three
  have hipv4 : ¬IsIPv4 (Text.join ['.'] (registrable (h.labels.map Text.toLower))) := by
    rintro ⟨address, haddress⟩
    have hlabels := congrArg (List.length ∘ List.splitOn '.') haddress
    have hlength := length_registrable_le (h.labels.map Text.toLower)
    have hsplit : (Text.join ['.'] (registrable (h.labels.map Text.toLower))).splitOn '.'
        = registrable (h.labels.map Text.toLower) :=
      hsite.splitOn_join
    simp only [Function.comp, hsplit, address.splitOn_text] at hlabels
    rw [hlabels] at hlength
    exact absurd hlength (by simp [IPv4.octets])
  rw [h.getDomain_name, getDomain_join hsite.two_le hsite.clean hipv4, hlower,
    h.siteLabels.registrable_registrable]

end SiteHost

/-! ## URLs of a site -/

/-- A URL string whose host is one that is longer than a public suffix. -/
structure SiteUrl where
  url : Text
  host : SiteHost
  extractHostname_url : extractHostname url = host.name

/-- The classifier does not tell the two URLs apart as third parties. -/
def SameSite (u v : SiteUrl) : Prop := classify u.url v.url ≠ .kThirdParty

/-- The party relation of two hosts, neither of which is empty. -/
theorem classify_eq_kThirdParty_iff {url url' : Text} (h : extractHostname url ≠ [])
    (h' : extractHostname url' ≠ []) : classify url url' = .kThirdParty
      ↔ getDomain (extractHostname url) ≠ getDomain (extractHostname url') := by
  have hne : url' ≠ [] := by
    rintro rfl
    exact h' rfl
  unfold classify
  rw [if_neg hne]
  simp only
  rw [if_neg (not_or.mpr ⟨h, h'⟩)]
  split
  · next hsame => simp [hsame]
  · split <;> simp_all

theorem SiteHost.name_ne_nil (h : SiteHost) : h.name ≠ [] := by
  intro hnil
  have hdot := Text.dot_mem_join h.two_le
  rw [show Text.join ['.'] h.labels = [] from hnil] at hdot
  cases hdot

/-- Two URLs are of the same site if their hosts have the same domain. -/
theorem sameSite_iff (u v : SiteUrl) :
    SameSite u v ↔ getDomain u.host.name = getDomain v.host.name := by
  have hu := u.extractHostname_url
  have hv := v.extractHostname_url
  unfold SameSite
  rw [ne_eq, classify_eq_kThirdParty_iff (hu ▸ u.host.name_ne_nil) (hv ▸ v.host.name_ne_nil), hu,
    hv, not_not]

/-- Sites are closed under subdomains: a label in front changes no domain, a domain is a suffix of
its host at a label and its own domain, and the party relation is the equivalence of hosts with one
domain. -/
theorem site_laws :
    (∀ (h : SiteHost) (front : List Text), front ≠ [] → (∀ l ∈ front, '.' ∉ l ∧ l ≠ []) →
        ¬IsIPv4 (Text.join ['.'] (front ++ h.labels)) →
        getDomain (Text.join ['.'] (front ++ h.labels)) = getDomain h.name)
      ∧ (∀ h : SiteHost, (getDomain h.name = Text.toLower h.name
          ∨ '.' :: getDomain h.name <:+ Text.toLower h.name)
        ∧ getDomain (getDomain h.name) = getDomain h.name)
      ∧ Equivalence SameSite
      ∧ (∀ (u : SiteUrl) (front : List Text) (url : Text), front ≠ [] →
        (∀ l ∈ front, '.' ∉ l ∧ l ≠ []) → ¬IsIPv4 (Text.join ['.'] (front ++ u.host.labels)) →
        extractHostname url = Text.join ['.'] (front ++ u.host.labels) →
        classify u.url url ≠ .kThirdParty ∧ classify url u.url ≠ .kThirdParty)
      ∧ ∀ u v : SiteUrl, getDomain u.host.name ≠ getDomain v.host.name → ¬SameSite u v := by
  refine ⟨fun h front _ => h.getDomain_append, fun h => ⟨h.getDomain_suffix, h.getDomain_getDomain⟩,
    ⟨fun u => ?_, fun h => ?_, fun h h' => ?_⟩, ?_, fun u v hne h => hne ((sameSite_iff u v).mp h)⟩
  · exact (sameSite_iff u u).mpr rfl
  · exact (sameSite_iff _ _).mpr ((sameSite_iff _ _).mp h).symm
  · exact (sameSite_iff _ _).mpr (((sameSite_iff _ _).mp h).trans ((sameSite_iff _ _).mp h'))
  · intro u front url _ hclean hipv4 hurl
    have hu := u.extractHostname_url
    have hne : extractHostname u.url ≠ [] := hu ▸ u.host.name_ne_nil
    have hne' : extractHostname url ≠ [] := by
      intro hnil
      have htwo := u.host.two_le
      have hlength : 2 ≤ (front ++ u.host.labels).length := by
        rw [List.length_append]
        omega
      have hdot := Text.dot_mem_join hlength
      rw [← hurl, hnil] at hdot
      cases hdot
    have hdomain := u.host.getDomain_append hclean hipv4
    rw [ne_eq, ne_eq, classify_eq_kThirdParty_iff hne hne', classify_eq_kThirdParty_iff hne' hne,
      hu, hurl, hdomain]
    simp

/-- A host under a public suffix of two labels. -/
def shopHost : SiteHost where
  labels := ["shop", "co", "uk"].map String.toList
  two_le := by decide
  clean := by decide
  not_suffix := by decide +kernel
  not_ipv4 := not_isIPv4_of_letter (c := 's') (by decide) (by decide)

theorem getDomain_www_shop :
    getDomain (Text.join ['.'] (["www".toList] ++ shopHost.labels)) = getDomain shopHost.name :=
  site_laws.1 shopHost ["www".toList] (by simp) (by decide)
    (not_isIPv4_of_letter (c := 'w') (by decide) (by decide))

end ThirdPartyClassifier
end ThoriumFrugal.Privacy
