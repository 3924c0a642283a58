import Flowness.Library.JsonParser

/-!
A rendered object behind a line that was cut short: the two together are no JSON text, unless
the cut line was blank.
-/

namespace Flowness.Library

open Option List

namespace Json

section

variable {w : Text}

/-- What was read does not reach the object. -/
private def Before (w rest : Text) : Prop := ∃ front, rest = front ++ '{' :: '"' :: w

private theorem before_of_read {front after : Text} (read : Text)
    (h : front ++ '{' :: '"' :: w = read ++ after)
    (hread : '{' ∉ read) : Before w after := by
  rcases append_eq_append_iff.mp h with ⟨more, hread', hafter⟩ | ⟨more, -, hafter⟩
  · cases more with
    | nil => exact ⟨[], hafter.symm⟩
    | cons c more =>
      obtain ⟨rfl, -⟩ := List.cons.inj hafter
      exact absurd (by simp [hread']) hread
  · exact ⟨more, hafter⟩

private theorem hexUnit_not_brace (h : hexUnit a b c d = some unit) : '{' ∉ [a, b, c, d] := by
  have hbrace : hexValue '{' = none := by decide
  intro hmem
  simp only [mem_cons, not_mem_nil, or_false] at hmem
  unfold hexUnit at h
  simp only [bind, bind_eq_some_iff] at h
  obtain ⟨_, ha, _, hb, _, hc, _, hd, -⟩ := h
  rcases hmem with rfl | rfl | rfl | rfl
  · simp [hbrace] at ha
  · simp [hbrace] at hb
  · simp [hbrace] at hc
  · simp [hbrace] at hd

private theorem parseStringBody_fused {front body rest : Text}
    (h : parseStringBody (front ++ '{' :: '"' :: w) = some (body, rest)) :
    Before w rest ∨ rest = w := by
  have hmap : ∀ {c : Char} {o : Option (Text × Text)} {body rest : Text},
      o.map (Prod.map (c :: ·) id) = some (body, rest) → ∃ tail, o = some (tail, rest) := by
    intro c o body rest ho
    obtain ⟨⟨tail, rest'⟩, hsome, hpair⟩ := map_eq_some_iff.mp ho
    obtain ⟨-, rfl⟩ := Prod.mk.inj hpair
    exact ⟨tail, hsome⟩
  generalize htext : front ++ '{' :: '"' :: w = text at h
  fun_induction parseStringBody text generalizing front body rest with
  | case2 after =>
    cases h
    exact .inl (before_of_read ['"'] htext (by decide))
  | case4 c after hquote hcontrol hslash ih =>
    obtain ⟨tail, hbody⟩ := hmap h
    cases front with
    | nil =>
      obtain ⟨-, rfl⟩ := List.cons.inj htext
      rw [parseStringBody.eq_def] at hbody
      cases hbody
      exact .inr rfl
    | cons c' front =>
      obtain ⟨-, htail⟩ := List.cons.inj htext
      exact ih htail hbody
  | case7 c hquote hcontrol hslash e after hu d hescape ih =>
    obtain ⟨tail, hbody⟩ := hmap h
    have hread : '{' ∉ [c, e] := by
      have hbrace : unescape '{' = none := by decide
      intro hmem
      simp only [mem_cons, not_mem_nil, or_false] at hmem
      rcases hmem with rfl | rfl
      · exact hslash (by decide)
      · simp [hbrace] at hescape
    obtain ⟨more, hmore⟩ := before_of_read [c, e] htext hread
    exact ih hmore.symm hbody
  | case9 c hquote hcontrol hslash e hu a b x d after unit hunit hplain ih =>
    obtain ⟨tail, hbody⟩ := hmap h
    have hread : '{' ∉ [c, e] ++ [a, b, x, d] := by
      rw [not_not.mp hslash, not_not.mp hu, mem_append, not_or]
      exact ⟨by decide, hexUnit_not_brace hunit⟩
    obtain ⟨more, hmore⟩ := before_of_read [c, e, a, b, x, d] htext hread
    exact ih hmore.symm hbody
  | case12 c hquote hcontrol hslash e hu a b x d unit hunit hpair s u a' b' x' d' after hsu joined
      hjoined ih =>
    obtain ⟨tail, hbody⟩ := hmap h
    obtain ⟨low, hlow, -⟩ := bind_eq_some_iff.mp hjoined
    have hread : '{' ∉ [c, e] ++ [a, b, x, d] ++ [s, u] ++ [a', b', x', d'] := by
      rw [not_or, not_not, not_not] at hsu
      rw [not_not.mp hslash, not_not.mp hu, hsu.1, hsu.2]
      simp only [mem_append, not_or]
      exact ⟨⟨⟨by decide, hexUnit_not_brace hunit⟩, by decide⟩, hexUnit_not_brace hlow⟩
    obtain ⟨more, hmore⟩ := before_of_read [c, e, a, b, x, d, s, u, a', b', x', d'] htext hread
    exact ih hmore.symm hbody
  | _ => contradiction

private theorem skipSpace_fused (front : Text) :
    skipSpace (front ++ '{' :: '"' :: w) = skipSpace front ++ '{' :: '"' :: w := by
  unfold skipSpace
  rw [dropWhile_append]
  split
  next hnil =>
    rw [isEmpty_iff.mp hnil]
    rfl
  · rfl

/-- The next sign after a part that was read, where the object's key can follow none. -/
private theorem sign_fused {rest after : Text} {sign c : Char} {tail : Text}
    (hrest : Before w rest ∨ rest = w) (hw : w = c :: tail) (hspace : isJsonSpace c = false)
    (hne : sign ≠ c) (hbrace : sign ≠ '{') (hskip : skipSpace rest = sign :: after) :
    Before w after := by
  rcases hrest with ⟨front, rfl⟩ | rfl
  · rw [skipSpace_fused] at hskip
    exact before_of_read [sign] hskip (by simpa using hbrace.symm)
  · rw [hw, skipSpace_cons hspace] at hskip
    exact absurd (List.cons.inj hskip).1.symm hne

private theorem parseKey_fused {front rest : Text} {key : String} {c : Char} {tail : Text}
    (hw : w = c :: tail) (hspace : isJsonSpace c = false) (hcolon : ':' ≠ c)
    (h : parseKey (front ++ '{' :: '"' :: w) = some (key, rest)) : Before w rest := by
  unfold parseKey at h
  rw [skipSpace_fused] at h
  cases hfront : skipSpace front with
  | nil =>
    rw [hfront] at h
    simp at h
  | cons quote front =>
    simp only [hfront, cons_append] at h
    by_cases hquote : quote = '"'
    · cases hbody : parseStringBody (front ++ '{' :: '"' :: w) with
      | none => simp [hquote, hbody] at h
      | some pair =>
        obtain ⟨body, after⟩ := pair
        simp only [hquote, hbody, ne_eq, if_false] at h
        cases hafter : skipSpace after with
        | nil => simp [hafter] at h
        | cons sign final =>
          simp only [hafter] at h
          by_cases hsign : sign = ':'
          · rw [if_pos hsign] at h
            cases h
            subst hsign
            exact sign_fused (parseStringBody_fused hbody) hw hspace hcolon (by decide) hafter
          · simp [hsign] at h
    · simp [hquote] at h

private theorem parseLiteral_fused {literal front rest : Text} {value parsed : Json}
    (hliteral : '{' ∉ literal)
    (h : parseLiteral literal value (front ++ '{' :: '"' :: w) = some (parsed, rest)) :
    Before w rest := by
  unfold parseLiteral at h
  split at h
  next hpre =>
    cases h
    obtain ⟨after, hafter⟩ := isPrefixOf_iff_prefix.mp hpre
    rw [← hafter, drop_left]
    exact before_of_read _ hafter.symm hliteral
  · contradiction

private theorem parseNumber_fused (front : Text) {rest : Text} {value : Json}
    (h : parseNumber (front ++ '{' :: '"' :: w) = some (value, rest)) : Before w rest := by
  have hdrop : (front ++ '{' :: '"' :: w).dropWhile isNumberChar = rest := by
    unfold parseNumber at h
    dsimp only at h
    split at h
    · split at h
      · exact (Prod.mk.inj (some.inj h)).2
      · contradiction
    · obtain ⟨n, -, hpair⟩ := map_eq_some_iff.mp h
      exact (Prod.mk.inj hpair).2
  refine ⟨front.dropWhile isNumberChar, ?_⟩
  rw [← hdrop, dropWhile_append]
  split
  next hnil =>
    rw [isEmpty_iff.mp hnil]
    rfl
  · rfl

/-- What the parsers leave of a text that ends in the object: the object, its inside, or nothing
when the object is all there is. -/
private structure Fused (w : Text) (fuel : Nat) : Prop where
  value : ∀ front value rest, parseValue fuel (front ++ '{' :: '"' :: w) = some (value, rest) →
    (Before w rest ∨ rest = w) ∨ (rest = [] ∧ skipSpace front = [])
  items : ∀ items front value rest,
    parseItems fuel items (front ++ '{' :: '"' :: w) = some (value, rest) → Before w rest
  entries : ∀ entries front value rest,
    parseEntries fuel entries (front ++ '{' :: '"' :: w) = some (value, rest) → Before w rest

private theorem parseEntries_brace (fuel : Nat) (entries : List (String × Json)) (text : Text) :
    parseEntries fuel entries ('{' :: text) = none := by
  cases fuel with
  | zero => rw [parseEntries]
  | succ fuel =>
    rfl

private theorem parseValue_fused {fuel : Nat} (ih : Fused w fuel)
    (hwhole : ∀ fuel value rest, parseValue fuel ('{' :: '"' :: w) = some (value, rest) → rest = [])
    {front rest : Text} {value : Json}
    (h : parseValue (fuel + 1) (front ++ '{' :: '"' :: w) = some (value, rest)) :
    (Before w rest ∨ rest = w) ∨ (rest = [] ∧ skipSpace front = []) := by
  cases hfront : skipSpace front with
  | nil =>
    refine .inr ⟨hwhole (fuel + 1) value rest ?_, rfl⟩
    rw [parseValue, skipSpace_fused, hfront] at h
    exact h
  | cons c front =>
    left
    rw [parseValue, skipSpace_fused, hfront] at h
    simp only [cons_append, skipSpace_fused] at h
    by_cases hobj : c = '{'
    · left
      rw [if_pos hobj] at h
      cases hafter : skipSpace front with
      | nil =>
        rw [hafter] at h
        simp [parseEntries_brace] at h
      | cons d after =>
        simp only [hafter, cons_append] at h
        by_cases hclose : d = '}'
        · rw [if_pos hclose] at h
          cases h
          exact ⟨after, rfl⟩
        · rw [if_neg hclose] at h
          exact ih.entries [] (d :: after) value rest h
    by_cases harr : c = '['
    · left
      rw [if_neg hobj, if_pos harr] at h
      cases hafter : skipSpace front with
      | nil =>
        rw [hafter] at h
        exact ih.items [] [] value rest h
      | cons d after =>
        simp only [hafter, cons_append] at h
        by_cases hclose : d = ']'
        · rw [if_pos hclose] at h
          cases h
          exact ⟨after, rfl⟩
        · rw [if_neg hclose] at h
          exact ih.items [] (d :: after) value rest h
    simp only [hobj, harr, if_false] at h
    split at h
    · obtain ⟨⟨body, tail⟩, hbody, hpair⟩ := map_eq_some_iff.mp h
      obtain ⟨-, rfl⟩ := Prod.mk.inj hpair
      exact parseStringBody_fused hbody
    left
    split at h
    · exact parseLiteral_fused (by decide) h
    split at h
    · exact parseLiteral_fused (by decide) h
    split at h
    · exact parseLiteral_fused (by decide) h
    · exact parseNumber_fused (c :: front) h

private theorem fused_all {c : Char} {tail : Text} (hw : w = c :: tail)
    (hspace : isJsonSpace c = false) (hletter : c ∉ [':', ',', ']', '}'])
    (hwhole : ∀ fuel value rest, parseValue fuel ('{' :: '"' :: w) = some (value, rest) → rest = [])
    (fuel : Nat) : Fused w fuel := by
  simp only [mem_cons, not_mem_nil, or_false, not_or] at hletter
  obtain ⟨hcolon, hcomma, hbracket, hbrace⟩ := hletter
  -- the sign after a value that stands in a list or an entry
  have hnext : ∀ {fuel front value rest sign after}, Fused w fuel →
      parseValue fuel (front ++ '{' :: '"' :: w) = some (value, rest) →
      skipSpace rest = sign :: after → sign ≠ c → sign ≠ '{' → Before w after := by
    intro fuel front value rest sign after ih hvalue hskip hne hsign
    rcases ih.value _ _ _ hvalue with hrest | ⟨rfl, -⟩
    · exact sign_fused hrest hw hspace hne hsign hskip
    · simp [skipSpace] at hskip
  induction fuel with
  | zero =>
    refine ⟨?_, ?_, ?_⟩
    · intro front value rest h
      rw [parseValue] at h
      contradiction
    · intro items front value rest h
      rw [parseItems] at h
      contradiction
    · intro entries front value rest h
      rw [parseEntries] at h
      contradiction
  | succ fuel ih =>
    refine ⟨fun front value rest h => parseValue_fused ih hwhole h, ?_, ?_⟩
    · intro items front value rest h
      rw [parseItems] at h
      cases hvalue : parseValue fuel (front ++ '{' :: '"' :: w) with
      | none => simp [hvalue] at h
      | some pair =>
        obtain ⟨item, after⟩ := pair
        simp only [hvalue] at h
        cases hskip : skipSpace after with
        | nil => simp [hskip] at h
        | cons sign final =>
          simp only [hskip] at h
          split at h
          next hsign =>
            subst hsign
            obtain ⟨more, rfl⟩ := hnext ih hvalue hskip (Ne.symm hcomma) (by decide)
            exact ih.items _ _ _ _ h
          · split at h
            next hsign =>
              subst hsign
              cases h
              exact hnext ih hvalue hskip (Ne.symm hbracket) (by decide)
            · contradiction
    · intro entries front value rest h
      rw [parseEntries] at h
      cases hkey : parseKey (front ++ '{' :: '"' :: w) with
      | none => simp [hkey] at h
      | some pair =>
        obtain ⟨key, afterKey⟩ := pair
        simp only [hkey] at h
        obtain ⟨inner, rfl⟩ := parseKey_fused hw hspace (Ne.symm hcolon) hkey
        cases hvalue : parseValue fuel (inner ++ '{' :: '"' :: w) with
        | none => simp [hvalue] at h
        | some pair =>
          obtain ⟨item, after⟩ := pair
          simp only [hvalue] at h
          cases hskip : skipSpace after with
          | nil => simp [hskip] at h
          | cons sign final =>
            simp only [hskip] at h
            split at h
            next hsign =>
              subst hsign
              obtain ⟨more, rfl⟩ := hnext ih hvalue hskip (Ne.symm hcomma) (by decide)
              exact ih.entries _ _ _ _ h
            · split at h
              next hsign =>
                subst hsign
                cases h
                exact hnext ih hvalue hskip (Ne.symm hbrace) (by decide)
              · contradiction

/-- Text in front of a rendered object parses together with it only when it is white space. -/
theorem parse_fused_render_obj {key : String} {value parsed : Json} {entries : List (String × Json)}
    {front : Text} {c : Char} (hproper : (Json.obj ((key, value) :: entries)).proper = true)
    (hkey : (key.toList.flatMap escapeChar).head? = some c) (hspace : isJsonSpace c = false)
    (hletter : c ∉ [':', ',', ']', '}'])
    (h : parse (front ++ (Json.obj ((key, value) :: entries)).render) = some parsed) :
    skipSpace front = [] := by
  obtain ⟨tail, htail⟩ : ∃ tail, key.toList.flatMap escapeChar = c :: tail := by
    cases hbody : key.toList.flatMap escapeChar with
    | nil => simp [hbody] at hkey
    | cons d tail =>
      rw [hbody, List.head?_cons, some.injEq] at hkey
      exact ⟨tail, by rw [hkey]⟩
  obtain ⟨w, hw⟩ : ∃ w, (Json.obj ((key, value) :: entries)).render = '{' :: '"' :: c :: w := by
    refine ⟨tail ++ '"' :: ':' :: (value.render ++ renderEntries entries), ?_⟩
    simp [render, renderString, htail]
  unfold parse at h
  rw [hw] at h
  cases hvalue : parseValue ((front ++ '{' :: '"' :: c :: w).length + 1)
      (front ++ '{' :: '"' :: c :: w) with
  | none =>
    rw [hvalue] at h
    contradiction
  | some pair =>
    obtain ⟨parsed, rest⟩ := pair
    rw [hvalue] at h
    dsimp only at h
    have hwhole : ∀ fuel value rest,
        parseValue fuel ('{' :: '"' :: c :: w) = some (value, rest) → rest = [] := by
      intro fuel value rest hparse
      rw [← hw] at hparse
      exact parseValue_render_obj_rest hproper hparse
    split at h
    next hend =>
      rcases (fused_all rfl hspace hletter hwhole _).value _ _ _ hvalue with
        (⟨before, rfl⟩ | rfl) | ⟨-, hfront⟩
      · simp [skipSpace_fused] at hend
      · simp [skipSpace_cons hspace] at hend
      · exact hfront
    · contradiction

end

end Json

end Flowness.Library
