import SchemaGraph.Text.CodeRange

set_option autoImplicit false

/-! # Letters that differ in case only

Simple case folding groups the letters that count as one when case is ignored. Most groups are
pairs a fixed distance apart; they are written as ranges of the first letter, with step and
distance. The few larger groups are listed.
-/

namespace SchemaGraph

namespace CaseFolding

/-- First letters with the distance to the second one. -/
structure Pairs where
  firsts : CodeRange
  distance : Nat
  deriving DecidableEq, Repr

/-- The pairs, in the form `first-last/step+distance`. -/
def pairsWritten : String :=
  "41-4a/1+20 4c-52/1+20 54-5a/1+20 c0-c4/1+20 c6-d6/1+20 d8-de/1+20 df-df/1+1dbf ff-ff/1+79 " ++
    "100-12e/2+1 132-136/2+1 139-147/2+1 14a-176/2+1 179-17d/2+1 180-180/1+c3 181-181/1+d2 " ++
    "182-184/2+1 186-186/1+ce 187-187/1+1 189-18a/1+cd 18b-18b/1+1 18e-18e/1+4f 18f-18f/1+ca " ++
    "190-190/1+cb 191-191/1+1 193-193/1+cd 194-194/1+cf 195-195/1+61 196-196/1+d3 197-197/1+d1 " ++
    "198-198/1+1 19a-19a/1+a3 19c-19c/1+d3 19d-19d/1+d5 19e-19e/1+82 19f-19f/1+d6 1a0-1a4/2+1 " ++
    "1a6-1a6/1+da 1a7-1a7/1+1 1a9-1a9/1+da 1ac-1ac/1+1 1ae-1ae/1+da 1af-1af/1+1 1b1-1b2/1+d9 " ++
    "1b3-1b5/2+1 1b7-1b7/1+db 1b8-1b8/1+1 1bc-1bc/1+1 1bf-1bf/1+38 1cd-1db/2+1 1de-1ee/2+1 " ++
    "1f4-1f4/1+1 1f8-21e/2+1 222-232/2+1 23a-23a/1+2a2b 23b-23b/1+1 23e-23e/1+2a28 23f-240/1+2a3f " ++
    "241-241/1+1 244-244/1+45 245-245/1+47 246-24e/2+1 250-250/1+2a1f 251-251/1+2a1c " ++
    "252-252/1+2a1e 25c-25c/1+a54f 261-261/1+a54b 265-265/1+a528 266-266/1+a544 26a-26a/1+a544 " ++
    "26b-26b/1+29f7 26c-26c/1+a541 271-271/1+29fd 27d-27d/1+29e7 282-282/1+a543 287-287/1+a52a " ++
    "29d-29d/1+a515 29e-29e/1+a512 370-372/2+1 376-376/1+1 37b-37d/1+82 37f-37f/1+74 386-386/1+26 " ++
    "388-38a/1+25 38c-38c/1+40 38e-38f/1+3f 391-393/2+20 394-396/2+20 397-397/1+20 39b-39d/2+20 " ++
    "39e-39f/1+20 3a4-3a5/1+20 3a7-3a8/1+20 3aa-3ab/1+20 3cf-3cf/1+8 3d8-3ee/2+1 3f2-3f2/1+7 " ++
    "3f7-3f7/1+1 3fa-3fa/1+1 400-40f/1+50 410-411/1+20 413-415/2+20 416-41d/1+20 41f-420/1+20 " ++
    "423-429/1+20 42b-42f/1+20 460-460/1+1 464-480/2+1 48a-4be/2+1 4c0-4c0/1+f 4c1-4cd/2+1 " ++
    "4d0-52e/2+1 531-556/1+30 10a0-10c5/1+1c60 10c7-10c7/1+1c60 10cd-10cd/1+1c60 10d0-10fa/1+bc0 " ++
    "10fd-10ff/1+bc0 13a0-13ef/1+97d0 13f0-13f5/1+8 1d79-1d79/1+8a04 1d7d-1d7d/1+ee6 " ++
    "1d8e-1d8e/1+8a38 1e00-1e5e/2+1 1e62-1e94/2+1 1ea0-1efe/2+1 1f00-1f07/1+8 1f10-1f15/1+8 " ++
    "1f20-1f27/1+8 1f30-1f37/1+8 1f40-1f45/1+8 1f51-1f57/2+8 1f60-1f67/1+8 1f70-1f71/1+4a " ++
    "1f72-1f75/1+56 1f76-1f77/1+64 1f78-1f79/1+80 1f7a-1f7b/1+70 1f7c-1f7d/1+7e 1f80-1f87/1+8 " ++
    "1f90-1f97/1+8 1fa0-1fa7/1+8 1fb0-1fb1/1+8 1fb3-1fb3/1+9 1fc3-1fc3/1+9 1fd0-1fd1/1+8 " ++
    "1fe0-1fe1/1+8 1fe5-1fe5/1+7 1ff3-1ff3/1+9 2132-2132/1+1c 2160-216f/1+10 2183-2183/1+1 " ++
    "24b6-24cf/1+1a 2c00-2c2f/1+30 2c60-2c60/1+1 2c67-2c6b/2+1 2c72-2c72/1+1 2c75-2c75/1+1 " ++
    "2c80-2ce2/2+1 2ceb-2ced/2+1 2cf2-2cf2/1+1 a640-a648/2+1 a64c-a66c/2+1 a680-a69a/2+1 " ++
    "a722-a72e/2+1 a732-a76e/2+1 a779-a77b/2+1 a77e-a786/2+1 a78b-a78b/1+1 a790-a792/2+1 " ++
    "a794-a794/1+30 a796-a7a8/2+1 a7b3-a7b3/1+3a0 a7b4-a7c2/2+1 a7c7-a7c9/2+1 a7d0-a7d0/1+1 " ++
    "a7d6-a7d8/2+1 a7f5-a7f5/1+1 ff21-ff3a/1+20 10400-10427/1+28 104b0-104d3/1+28 " ++
    "10570-1057a/1+27 1057c-1058a/1+27 1058c-10592/1+27 10594-10595/1+27 10c80-10cb2/1+40 " ++
    "118a0-118bf/1+20 16e40-16e5f/1+20 1e900-1e921/1+22"

/-- Numbers in hexadecimal, cut at every character that is no digit. -/
def numbers (text : String) : List Nat :=
  let isDigit (c : Char) : Bool := ('0' ≤ c && c ≤ '9') || ('a' ≤ c && c ≤ 'f')
  let (done, current) := text.toList.foldl (fun (state : List Nat × Nat) c =>
    if isDigit c then (state.1, 16 * state.2 + CodeRanges.digitValue c)
    else (state.2 :: state.1, 0)) ([], 0)
  (current :: done).reverse

def pairsOf : List Nat → List Pairs
  | first :: last :: step :: distance :: rest => ⟨⟨first, last, step⟩, distance⟩ :: pairsOf rest
  | _ => []

def pairs : List Pairs := pairsOf (numbers pairsWritten)

/-- The groups of more than two letters. -/
def groups : List (List Nat) :=
  [[0x4b, 0x6b, 0x212a], [0x53, 0x73, 0x17f], [0xc5, 0xe5, 0x212b], [0x1c4, 0x1c5, 0x1c6],
   [0x1c7, 0x1c8, 0x1c9], [0x1ca, 0x1cb, 0x1cc], [0x1f1, 0x1f2, 0x1f3], [0x392, 0x3b2,
   0x3d0], [0x395, 0x3b5, 0x3f5], [0x398, 0x3b8, 0x3d1, 0x3f4], [0x345, 0x399, 0x3b9,
   0x1fbe], [0x39a, 0x3ba, 0x3f0], [0xb5, 0x39c, 0x3bc], [0x3a0, 0x3c0, 0x3d6], [0x3a1,
   0x3c1, 0x3f1], [0x3a3, 0x3c2, 0x3c3], [0x3a6, 0x3c6, 0x3d5], [0x3a9, 0x3c9, 0x2126],
   [0x412, 0x432, 0x1c80], [0x414, 0x434, 0x1c81], [0x41e, 0x43e, 0x1c82], [0x421, 0x441,
   0x1c83], [0x422, 0x442, 0x1c84, 0x1c85], [0x42a, 0x44a, 0x1c86], [0x462, 0x463, 0x1c87],
   [0x1e60, 0x1e61, 0x1e9b], [0x1c88, 0xa64a, 0xa64b]]

/-- The letters that count as the given one when case is ignored, itself included. -/
def orbit (code : Nat) : List Nat :=
  match groups.find? fun group => group.contains code with
  | some group => group
  | none =>
    match pairs.find? fun p => p.firsts.contains code || (p.distance ≤ code && p.firsts.contains (code - p.distance)) with
    | some p => if p.firsts.contains code then [code, code + p.distance] else [code - p.distance, code]
    | none => [code]

end CaseFolding

end SchemaGraph
