import XmlInspect.Text.Blank

/-!
# Code pages

A single-byte charset agrees with ASCII below 80 and has a code page above. A page is written as
its 128 code points in hexadecimal, in the order of the bytes; `----` marks a byte that stands for
no character. Where the vendors left a byte between 80 and 9F open, the page has the control
character of that number.
-/

namespace XmlInspect

/-- The characters of the bytes from 80 to FF. -/
structure CodePage where
  /-- Code points in hexadecimal, divided by blanks. -/
  words : String

namespace CodePage

/-- The value of a hexadecimal digit. -/
def hexDigit? (c : Char) : Option Nat :=
  if c.isDigit then some (c.toNat - 0x30)
  else if 'A' ≤ c ∧ c ≤ 'F' then some (c.toNat - 0x37)
  else none

/-- The code point that a word of a page names. -/
def codePoint? (word : List Char) : Option Nat :=
  word.foldlM (fun n c ↦ (hexDigit? c).map (16 * n + ·)) 0

/-- The character of a byte of the upper half. -/
def char? (page : CodePage) (byte : UInt8) : Option Char := do
  let word ← (Text.words page.words.toList)[byte.toNat - 0x80]?
  let n ← codePoint? word
  return Char.ofNat n

def ibm866 : CodePage := ⟨"
  0410 0411 0412 0413 0414 0415 0416 0417 0418 0419 041A 041B 041C 041D 041E 041F
  0420 0421 0422 0423 0424 0425 0426 0427 0428 0429 042A 042B 042C 042D 042E 042F
  0430 0431 0432 0433 0434 0435 0436 0437 0438 0439 043A 043B 043C 043D 043E 043F
  2591 2592 2593 2502 2524 2561 2562 2556 2555 2563 2551 2557 255D 255C 255B 2510
  2514 2534 252C 251C 2500 253C 255E 255F 255A 2554 2569 2566 2560 2550 256C 2567
  2568 2564 2565 2559 2558 2552 2553 256B 256A 2518 250C 2588 2584 258C 2590 2580
  0440 0441 0442 0443 0444 0445 0446 0447 0448 0449 044A 044B 044C 044D 044E 044F
  0401 0451 0404 0454 0407 0457 040E 045E 00B0 2219 00B7 221A 2116 00A4 25A0 00A0"⟩

def isoPart2 : CodePage := ⟨"
  0080 0081 0082 0083 0084 0085 0086 0087 0088 0089 008A 008B 008C 008D 008E 008F
  0090 0091 0092 0093 0094 0095 0096 0097 0098 0099 009A 009B 009C 009D 009E 009F
  00A0 0104 02D8 0141 00A4 013D 015A 00A7 00A8 0160 015E 0164 0179 00AD 017D 017B
  00B0 0105 02DB 0142 00B4 013E 015B 02C7 00B8 0161 015F 0165 017A 02DD 017E 017C
  0154 00C1 00C2 0102 00C4 0139 0106 00C7 010C 00C9 0118 00CB 011A 00CD 00CE 010E
  0110 0143 0147 00D3 00D4 0150 00D6 00D7 0158 016E 00DA 0170 00DC 00DD 0162 00DF
  0155 00E1 00E2 0103 00E4 013A 0107 00E7 010D 00E9 0119 00EB 011B 00ED 00EE 010F
  0111 0144 0148 00F3 00F4 0151 00F6 00F7 0159 016F 00FA 0171 00FC 00FD 0163 02D9"⟩

def isoPart3 : CodePage := ⟨"
  0080 0081 0082 0083 0084 0085 0086 0087 0088 0089 008A 008B 008C 008D 008E 008F
  0090 0091 0092 0093 0094 0095 0096 0097 0098 0099 009A 009B 009C 009D 009E 009F
  00A0 0126 02D8 00A3 00A4 ---- 0124 00A7 00A8 0130 015E 011E 0134 00AD ---- 017B
  00B0 0127 00B2 00B3 00B4 00B5 0125 00B7 00B8 0131 015F 011F 0135 00BD ---- 017C
  00C0 00C1 00C2 ---- 00C4 010A 0108 00C7 00C8 00C9 00CA 00CB 00CC 00CD 00CE 00CF
  ---- 00D1 00D2 00D3 00D4 0120 00D6 00D7 011C 00D9 00DA 00DB 00DC 016C 015C 00DF
  00E0 00E1 00E2 ---- 00E4 010B 0109 00E7 00E8 00E9 00EA 00EB 00EC 00ED 00EE 00EF
  ---- 00F1 00F2 00F3 00F4 0121 00F6 00F7 011D 00F9 00FA 00FB 00FC 016D 015D 02D9"⟩

def isoPart4 : CodePage := ⟨"
  0080 0081 0082 0083 0084 0085 0086 0087 0088 0089 008A 008B 008C 008D 008E 008F
  0090 0091 0092 0093 0094 0095 0096 0097 0098 0099 009A 009B 009C 009D 009E 009F
  00A0 0104 0138 0156 00A4 0128 013B 00A7 00A8 0160 0112 0122 0166 00AD 017D 00AF
  00B0 0105 02DB 0157 00B4 0129 013C 02C7 00B8 0161 0113 0123 0167 014A 017E 014B
  0100 00C1 00C2 00C3 00C4 00C5 00C6 012E 010C 00C9 0118 00CB 0116 00CD 00CE 012A
  0110 0145 014C 0136 00D4 00D5 00D6 00D7 00D8 0172 00DA 00DB 00DC 0168 016A 00DF
  0101 00E1 00E2 00E3 00E4 00E5 00E6 012F 010D 00E9 0119 00EB 0117 00ED 00EE 012B
  0111 0146 014D 0137 00F4 00F5 00F6 00F7 00F8 0173 00FA 00FB 00FC 0169 016B 02D9"⟩

def isoPart5 : CodePage := ⟨"
  0080 0081 0082 0083 0084 0085 0086 0087 0088 0089 008A 008B 008C 008D 008E 008F
  0090 0091 0092 0093 0094 0095 0096 0097 0098 0099 009A 009B 009C 009D 009E 009F
  00A0 0401 0402 0403 0404 0405 0406 0407 0408 0409 040A 040B 040C 00AD 040E 040F
  0410 0411 0412 0413 0414 0415 0416 0417 0418 0419 041A 041B 041C 041D 041E 041F
  0420 0421 0422 0423 0424 0425 0426 0427 0428 0429 042A 042B 042C 042D 042E 042F
  0430 0431 0432 0433 0434 0435 0436 0437 0438 0439 043A 043B 043C 043D 043E 043F
  0440 0441 0442 0443 0444 0445 0446 0447 0448 0449 044A 044B 044C 044D 044E 044F
  2116 0451 0452 0453 0454 0455 0456 0457 0458 0459 045A 045B 045C 00A7 045E 045F"⟩

def isoPart6 : CodePage := ⟨"
  0080 0081 0082 0083 0084 0085 0086 0087 0088 0089 008A 008B 008C 008D 008E 008F
  0090 0091 0092 0093 0094 0095 0096 0097 0098 0099 009A 009B 009C 009D 009E 009F
  00A0 ---- ---- ---- 00A4 ---- ---- ---- ---- ---- ---- ---- 060C 00AD ---- ----
  ---- ---- ---- ---- ---- ---- ---- ---- ---- ---- ---- 061B ---- ---- ---- 061F
  ---- 0621 0622 0623 0624 0625 0626 0627 0628 0629 062A 062B 062C 062D 062E 062F
  0630 0631 0632 0633 0634 0635 0636 0637 0638 0639 063A ---- ---- ---- ---- ----
  0640 0641 0642 0643 0644 0645 0646 0647 0648 0649 064A 064B 064C 064D 064E 064F
  0650 0651 0652 ---- ---- ---- ---- ---- ---- ---- ---- ---- ---- ---- ---- ----"⟩

def isoPart7 : CodePage := ⟨"
  0080 0081 0082 0083 0084 0085 0086 0087 0088 0089 008A 008B 008C 008D 008E 008F
  0090 0091 0092 0093 0094 0095 0096 0097 0098 0099 009A 009B 009C 009D 009E 009F
  00A0 2018 2019 00A3 20AC 20AF 00A6 00A7 00A8 00A9 037A 00AB 00AC 00AD ---- 2015
  00B0 00B1 00B2 00B3 0384 0385 0386 00B7 0388 0389 038A 00BB 038C 00BD 038E 038F
  0390 0391 0392 0393 0394 0395 0396 0397 0398 0399 039A 039B 039C 039D 039E 039F
  03A0 03A1 ---- 03A3 03A4 03A5 03A6 03A7 03A8 03A9 03AA 03AB 03AC 03AD 03AE 03AF
  03B0 03B1 03B2 03B3 03B4 03B5 03B6 03B7 03B8 03B9 03BA 03BB 03BC 03BD 03BE 03BF
  03C0 03C1 03C2 03C3 03C4 03C5 03C6 03C7 03C8 03C9 03CA 03CB 03CC 03CD 03CE ----"⟩

def isoPart8 : CodePage := ⟨"
  0080 0081 0082 0083 0084 0085 0086 0087 0088 0089 008A 008B 008C 008D 008E 008F
  0090 0091 0092 0093 0094 0095 0096 0097 0098 0099 009A 009B 009C 009D 009E 009F
  00A0 ---- 00A2 00A3 00A4 00A5 00A6 00A7 00A8 00A9 00D7 00AB 00AC 00AD 00AE 00AF
  00B0 00B1 00B2 00B3 00B4 00B5 00B6 00B7 00B8 00B9 00F7 00BB 00BC 00BD 00BE ----
  ---- ---- ---- ---- ---- ---- ---- ---- ---- ---- ---- ---- ---- ---- ---- ----
  ---- ---- ---- ---- ---- ---- ---- ---- ---- ---- ---- ---- ---- ---- ---- 2017
  05D0 05D1 05D2 05D3 05D4 05D5 05D6 05D7 05D8 05D9 05DA 05DB 05DC 05DD 05DE 05DF
  05E0 05E1 05E2 05E3 05E4 05E5 05E6 05E7 05E8 05E9 05EA ---- ---- 200E 200F ----"⟩

def isoPart10 : CodePage := ⟨"
  0080 0081 0082 0083 0084 0085 0086 0087 0088 0089 008A 008B 008C 008D 008E 008F
  0090 0091 0092 0093 0094 0095 0096 0097 0098 0099 009A 009B 009C 009D 009E 009F
  00A0 0104 0112 0122 012A 0128 0136 00A7 013B 0110 0160 0166 017D 00AD 016A 014A
  00B0 0105 0113 0123 012B 0129 0137 00B7 013C 0111 0161 0167 017E 2015 016B 014B
  0100 00C1 00C2 00C3 00C4 00C5 00C6 012E 010C 00C9 0118 00CB 0116 00CD 00CE 00CF
  00D0 0145 014C 00D3 00D4 00D5 00D6 0168 00D8 0172 00DA 00DB 00DC 00DD 00DE 00DF
  0101 00E1 00E2 00E3 00E4 00E5 00E6 012F 010D 00E9 0119 00EB 0117 00ED 00EE 00EF
  00F0 0146 014D 00F3 00F4 00F5 00F6 0169 00F8 0173 00FA 00FB 00FC 00FD 00FE 0138"⟩

def isoPart13 : CodePage := ⟨"
  0080 0081 0082 0083 0084 0085 0086 0087 0088 0089 008A 008B 008C 008D 008E 008F
  0090 0091 0092 0093 0094 0095 0096 0097 0098 0099 009A 009B 009C 009D 009E 009F
  00A0 201D 00A2 00A3 00A4 201E 00A6 00A7 00D8 00A9 0156 00AB 00AC 00AD 00AE 00C6
  00B0 00B1 00B2 00B3 201C 00B5 00B6 00B7 00F8 00B9 0157 00BB 00BC 00BD 00BE 00E6
  0104 012E 0100 0106 00C4 00C5 0118 0112 010C 00C9 0179 0116 0122 0136 012A 013B
  0160 0143 0145 00D3 014C 00D5 00D6 00D7 0172 0141 015A 016A 00DC 017B 017D 00DF
  0105 012F 0101 0107 00E4 00E5 0119 0113 010D 00E9 017A 0117 0123 0137 012B 013C
  0161 0144 0146 00F3 014D 00F5 00F6 00F7 0173 0142 015B 016B 00FC 017C 017E 2019"⟩

def isoPart14 : CodePage := ⟨"
  0080 0081 0082 0083 0084 0085 0086 0087 0088 0089 008A 008B 008C 008D 008E 008F
  0090 0091 0092 0093 0094 0095 0096 0097 0098 0099 009A 009B 009C 009D 009E 009F
  00A0 1E02 1E03 00A3 010A 010B 1E0A 00A7 1E80 00A9 1E82 1E0B 1EF2 00AD 00AE 0178
  1E1E 1E1F 0120 0121 1E40 1E41 00B6 1E56 1E81 1E57 1E83 1E60 1EF3 1E84 1E85 1E61
  00C0 00C1 00C2 00C3 00C4 00C5 00C6 00C7 00C8 00C9 00CA 00CB 00CC 00CD 00CE 00CF
  0174 00D1 00D2 00D3 00D4 00D5 00D6 1E6A 00D8 00D9 00DA 00DB 00DC 00DD 0176 00DF
  00E0 00E1 00E2 00E3 00E4 00E5 00E6 00E7 00E8 00E9 00EA 00EB 00EC 00ED 00EE 00EF
  0175 00F1 00F2 00F3 00F4 00F5 00F6 1E6B 00F8 00F9 00FA 00FB 00FC 00FD 0177 00FF"⟩

def isoPart15 : CodePage := ⟨"
  0080 0081 0082 0083 0084 0085 0086 0087 0088 0089 008A 008B 008C 008D 008E 008F
  0090 0091 0092 0093 0094 0095 0096 0097 0098 0099 009A 009B 009C 009D 009E 009F
  00A0 00A1 00A2 00A3 20AC 00A5 0160 00A7 0161 00A9 00AA 00AB 00AC 00AD 00AE 00AF
  00B0 00B1 00B2 00B3 017D 00B5 00B6 00B7 017E 00B9 00BA 00BB 0152 0153 0178 00BF
  00C0 00C1 00C2 00C3 00C4 00C5 00C6 00C7 00C8 00C9 00CA 00CB 00CC 00CD 00CE 00CF
  00D0 00D1 00D2 00D3 00D4 00D5 00D6 00D7 00D8 00D9 00DA 00DB 00DC 00DD 00DE 00DF
  00E0 00E1 00E2 00E3 00E4 00E5 00E6 00E7 00E8 00E9 00EA 00EB 00EC 00ED 00EE 00EF
  00F0 00F1 00F2 00F3 00F4 00F5 00F6 00F7 00F8 00F9 00FA 00FB 00FC 00FD 00FE 00FF"⟩

def isoPart16 : CodePage := ⟨"
  0080 0081 0082 0083 0084 0085 0086 0087 0088 0089 008A 008B 008C 008D 008E 008F
  0090 0091 0092 0093 0094 0095 0096 0097 0098 0099 009A 009B 009C 009D 009E 009F
  00A0 0104 0105 0141 20AC 201E 0160 00A7 0161 00A9 0218 00AB 0179 00AD 017A 017B
  00B0 00B1 010C 0142 017D 201D 00B6 00B7 017E 010D 0219 00BB 0152 0153 0178 017C
  00C0 00C1 00C2 0102 00C4 0106 00C6 00C7 00C8 00C9 00CA 00CB 00CC 00CD 00CE 00CF
  0110 0143 00D2 00D3 00D4 0150 00D6 015A 0170 00D9 00DA 00DB 00DC 0118 021A 00DF
  00E0 00E1 00E2 0103 00E4 0107 00E6 00E7 00E8 00E9 00EA 00EB 00EC 00ED 00EE 00EF
  0111 0144 00F2 00F3 00F4 0151 00F6 015B 0171 00F9 00FA 00FB 00FC 0119 021B 00FF"⟩

def koi8r : CodePage := ⟨"
  2500 2502 250C 2510 2514 2518 251C 2524 252C 2534 253C 2580 2584 2588 258C 2590
  2591 2592 2593 2320 25A0 2219 221A 2248 2264 2265 00A0 2321 00B0 00B2 00B7 00F7
  2550 2551 2552 0451 2553 2554 2555 2556 2557 2558 2559 255A 255B 255C 255D 255E
  255F 2560 2561 0401 2562 2563 2564 2565 2566 2567 2568 2569 256A 256B 256C 00A9
  044E 0430 0431 0446 0434 0435 0444 0433 0445 0438 0439 043A 043B 043C 043D 043E
  043F 044F 0440 0441 0442 0443 0436 0432 044C 044B 0437 0448 044D 0449 0447 044A
  042E 0410 0411 0426 0414 0415 0424 0413 0425 0418 0419 041A 041B 041C 041D 041E
  041F 042F 0420 0421 0422 0423 0416 0412 042C 042B 0417 0428 042D 0429 0427 042A"⟩

def koi8u : CodePage := ⟨"
  2500 2502 250C 2510 2514 2518 251C 2524 252C 2534 253C 2580 2584 2588 258C 2590
  2591 2592 2593 2320 25A0 2219 221A 2248 2264 2265 00A0 2321 00B0 00B2 00B7 00F7
  2550 2551 2552 0451 0454 2554 0456 0457 2557 2558 2559 255A 255B 0491 045E 255E
  255F 2560 2561 0401 0404 2563 0406 0407 2566 2567 2568 2569 256A 0490 040E 00A9
  044E 0430 0431 0446 0434 0435 0444 0433 0445 0438 0439 043A 043B 043C 043D 043E
  043F 044F 0440 0441 0442 0443 0436 0432 044C 044B 0437 0448 044D 0449 0447 044A
  042E 0410 0411 0426 0414 0415 0424 0413 0425 0418 0419 041A 041B 041C 041D 041E
  041F 042F 0420 0421 0422 0423 0416 0412 042C 042B 0417 0428 042D 0429 0427 042A"⟩

def macintosh : CodePage := ⟨"
  00C4 00C5 00C7 00C9 00D1 00D6 00DC 00E1 00E0 00E2 00E4 00E3 00E5 00E7 00E9 00E8
  00EA 00EB 00ED 00EC 00EE 00EF 00F1 00F3 00F2 00F4 00F6 00F5 00FA 00F9 00FB 00FC
  2020 00B0 00A2 00A3 00A7 2022 00B6 00DF 00AE 00A9 2122 00B4 00A8 2260 00C6 00D8
  221E 00B1 2264 2265 00A5 00B5 2202 2211 220F 03C0 222B 00AA 00BA 03A9 00E6 00F8
  00BF 00A1 00AC 221A 0192 2248 2206 00AB 00BB 2026 00A0 00C0 00C3 00D5 0152 0153
  2013 2014 201C 201D 2018 2019 00F7 25CA 00FF 0178 2044 20AC 2039 203A FB01 FB02
  2021 00B7 201A 201E 2030 00C2 00CA 00C1 00CB 00C8 00CD 00CE 00CF 00CC 00D3 00D4
  F8FF 00D2 00DA 00DB 00D9 0131 02C6 02DC 00AF 02D8 02D9 02DA 00B8 02DD 02DB 02C7"⟩

def macCyrillic : CodePage := ⟨"
  0410 0411 0412 0413 0414 0415 0416 0417 0418 0419 041A 041B 041C 041D 041E 041F
  0420 0421 0422 0423 0424 0425 0426 0427 0428 0429 042A 042B 042C 042D 042E 042F
  2020 00B0 0490 00A3 00A7 2022 00B6 0406 00AE 00A9 2122 0402 0452 2260 0403 0453
  221E 00B1 2264 2265 0456 00B5 0491 0408 0404 0454 0407 0457 0409 0459 040A 045A
  0458 0405 00AC 221A 0192 2248 2206 00AB 00BB 2026 00A0 040B 045B 040C 045C 0455
  2013 2014 201C 201D 2018 2019 00F7 201E 040E 045E 040F 045F 2116 0401 0451 044F
  0430 0431 0432 0433 0434 0435 0436 0437 0438 0439 043A 043B 043C 043D 043E 043F
  0440 0441 0442 0443 0444 0445 0446 0447 0448 0449 044A 044B 044C 044D 044E 20AC"⟩

def windows874 : CodePage := ⟨"
  20AC 0081 0082 0083 0084 2026 0086 0087 0088 0089 008A 008B 008C 008D 008E 008F
  0090 2018 2019 201C 201D 2022 2013 2014 0098 0099 009A 009B 009C 009D 009E 009F
  00A0 0E01 0E02 0E03 0E04 0E05 0E06 0E07 0E08 0E09 0E0A 0E0B 0E0C 0E0D 0E0E 0E0F
  0E10 0E11 0E12 0E13 0E14 0E15 0E16 0E17 0E18 0E19 0E1A 0E1B 0E1C 0E1D 0E1E 0E1F
  0E20 0E21 0E22 0E23 0E24 0E25 0E26 0E27 0E28 0E29 0E2A 0E2B 0E2C 0E2D 0E2E 0E2F
  0E30 0E31 0E32 0E33 0E34 0E35 0E36 0E37 0E38 0E39 0E3A ---- ---- ---- ---- 0E3F
  0E40 0E41 0E42 0E43 0E44 0E45 0E46 0E47 0E48 0E49 0E4A 0E4B 0E4C 0E4D 0E4E 0E4F
  0E50 0E51 0E52 0E53 0E54 0E55 0E56 0E57 0E58 0E59 0E5A 0E5B ---- ---- ---- ----"⟩

def windows1250 : CodePage := ⟨"
  20AC 0081 201A 0083 201E 2026 2020 2021 0088 2030 0160 2039 015A 0164 017D 0179
  0090 2018 2019 201C 201D 2022 2013 2014 0098 2122 0161 203A 015B 0165 017E 017A
  00A0 02C7 02D8 0141 00A4 0104 00A6 00A7 00A8 00A9 015E 00AB 00AC 00AD 00AE 017B
  00B0 00B1 02DB 0142 00B4 00B5 00B6 00B7 00B8 0105 015F 00BB 013D 02DD 013E 017C
  0154 00C1 00C2 0102 00C4 0139 0106 00C7 010C 00C9 0118 00CB 011A 00CD 00CE 010E
  0110 0143 0147 00D3 00D4 0150 00D6 00D7 0158 016E 00DA 0170 00DC 00DD 0162 00DF
  0155 00E1 00E2 0103 00E4 013A 0107 00E7 010D 00E9 0119 00EB 011B 00ED 00EE 010F
  0111 0144 0148 00F3 00F4 0151 00F6 00F7 0159 016F 00FA 0171 00FC 00FD 0163 02D9"⟩

def windows1251 : CodePage := ⟨"
  0402 0403 201A 0453 201E 2026 2020 2021 20AC 2030 0409 2039 040A 040C 040B 040F
  0452 2018 2019 201C 201D 2022 2013 2014 0098 2122 0459 203A 045A 045C 045B 045F
  00A0 040E 045E 0408 00A4 0490 00A6 00A7 0401 00A9 0404 00AB 00AC 00AD 00AE 0407
  00B0 00B1 0406 0456 0491 00B5 00B6 00B7 0451 2116 0454 00BB 0458 0405 0455 0457
  0410 0411 0412 0413 0414 0415 0416 0417 0418 0419 041A 041B 041C 041D 041E 041F
  0420 0421 0422 0423 0424 0425 0426 0427 0428 0429 042A 042B 042C 042D 042E 042F
  0430 0431 0432 0433 0434 0435 0436 0437 0438 0439 043A 043B 043C 043D 043E 043F
  0440 0441 0442 0443 0444 0445 0446 0447 0448 0449 044A 044B 044C 044D 044E 044F"⟩

def windows1252 : CodePage := ⟨"
  20AC 0081 201A 0192 201E 2026 2020 2021 02C6 2030 0160 2039 0152 008D 017D 008F
  0090 2018 2019 201C 201D 2022 2013 2014 02DC 2122 0161 203A 0153 009D 017E 0178
  00A0 00A1 00A2 00A3 00A4 00A5 00A6 00A7 00A8 00A9 00AA 00AB 00AC 00AD 00AE 00AF
  00B0 00B1 00B2 00B3 00B4 00B5 00B6 00B7 00B8 00B9 00BA 00BB 00BC 00BD 00BE 00BF
  00C0 00C1 00C2 00C3 00C4 00C5 00C6 00C7 00C8 00C9 00CA 00CB 00CC 00CD 00CE 00CF
  00D0 00D1 00D2 00D3 00D4 00D5 00D6 00D7 00D8 00D9 00DA 00DB 00DC 00DD 00DE 00DF
  00E0 00E1 00E2 00E3 00E4 00E5 00E6 00E7 00E8 00E9 00EA 00EB 00EC 00ED 00EE 00EF
  00F0 00F1 00F2 00F3 00F4 00F5 00F6 00F7 00F8 00F9 00FA 00FB 00FC 00FD 00FE 00FF"⟩

def windows1253 : CodePage := ⟨"
  20AC 0081 201A 0192 201E 2026 2020 2021 0088 2030 008A 2039 008C 008D 008E 008F
  0090 2018 2019 201C 201D 2022 2013 2014 0098 2122 009A 203A 009C 009D 009E 009F
  00A0 0385 0386 00A3 00A4 00A5 00A6 00A7 00A8 00A9 ---- 00AB 00AC 00AD 00AE 2015
  00B0 00B1 00B2 00B3 0384 00B5 00B6 00B7 0388 0389 038A 00BB 038C 00BD 038E 038F
  0390 0391 0392 0393 0394 0395 0396 0397 0398 0399 039A 039B 039C 039D 039E 039F
  03A0 03A1 ---- 03A3 03A4 03A5 03A6 03A7 03A8 03A9 03AA 03AB 03AC 03AD 03AE 03AF
  03B0 03B1 03B2 03B3 03B4 03B5 03B6 03B7 03B8 03B9 03BA 03BB 03BC 03BD 03BE 03BF
  03C0 03C1 03C2 03C3 03C4 03C5 03C6 03C7 03C8 03C9 03CA 03CB 03CC 03CD 03CE ----"⟩

def windows1254 : CodePage := ⟨"
  20AC 0081 201A 0192 201E 2026 2020 2021 02C6 2030 0160 2039 0152 008D 008E 008F
  0090 2018 2019 201C 201D 2022 2013 2014 02DC 2122 0161 203A 0153 009D 009E 0178
  00A0 00A1 00A2 00A3 00A4 00A5 00A6 00A7 00A8 00A9 00AA 00AB 00AC 00AD 00AE 00AF
  00B0 00B1 00B2 00B3 00B4 00B5 00B6 00B7 00B8 00B9 00BA 00BB 00BC 00BD 00BE 00BF
  00C0 00C1 00C2 00C3 00C4 00C5 00C6 00C7 00C8 00C9 00CA 00CB 00CC 00CD 00CE 00CF
  011E 00D1 00D2 00D3 00D4 00D5 00D6 00D7 00D8 00D9 00DA 00DB 00DC 0130 015E 00DF
  00E0 00E1 00E2 00E3 00E4 00E5 00E6 00E7 00E8 00E9 00EA 00EB 00EC 00ED 00EE 00EF
  011F 00F1 00F2 00F3 00F4 00F5 00F6 00F7 00F8 00F9 00FA 00FB 00FC 0131 015F 00FF"⟩

def windows1255 : CodePage := ⟨"
  20AC 0081 201A 0192 201E 2026 2020 2021 02C6 2030 008A 2039 008C 008D 008E 008F
  0090 2018 2019 201C 201D 2022 2013 2014 02DC 2122 009A 203A 009C 009D 009E 009F
  00A0 00A1 00A2 00A3 20AA 00A5 00A6 00A7 00A8 00A9 00D7 00AB 00AC 00AD 00AE 00AF
  00B0 00B1 00B2 00B3 00B4 00B5 00B6 00B7 00B8 00B9 00F7 00BB 00BC 00BD 00BE 00BF
  05B0 05B1 05B2 05B3 05B4 05B5 05B6 05B7 05B8 05B9 05BA 05BB 05BC 05BD 05BE 05BF
  05C0 05C1 05C2 05C3 05F0 05F1 05F2 05F3 05F4 ---- ---- ---- ---- ---- ---- ----
  05D0 05D1 05D2 05D3 05D4 05D5 05D6 05D7 05D8 05D9 05DA 05DB 05DC 05DD 05DE 05DF
  05E0 05E1 05E2 05E3 05E4 05E5 05E6 05E7 05E8 05E9 05EA ---- ---- 200E 200F ----"⟩

def windows1256 : CodePage := ⟨"
  20AC 067E 201A 0192 201E 2026 2020 2021 02C6 2030 0679 2039 0152 0686 0698 0688
  06AF 2018 2019 201C 201D 2022 2013 2014 06A9 2122 0691 203A 0153 200C 200D 06BA
  00A0 060C 00A2 00A3 00A4 00A5 00A6 00A7 00A8 00A9 06BE 00AB 00AC 00AD 00AE 00AF
  00B0 00B1 00B2 00B3 00B4 00B5 00B6 00B7 00B8 00B9 061B 00BB 00BC 00BD 00BE 061F
  06C1 0621 0622 0623 0624 0625 0626 0627 0628 0629 062A 062B 062C 062D 062E 062F
  0630 0631 0632 0633 0634 0635 0636 00D7 0637 0638 0639 063A 0640 0641 0642 0643
  00E0 0644 00E2 0645 0646 0647 0648 00E7 00E8 00E9 00EA 00EB 0649 064A 00EE 00EF
  064B 064C 064D 064E 00F4 064F 0650 00F7 0651 00F9 0652 00FB 00FC 200E 200F 06D2"⟩

def windows1257 : CodePage := ⟨"
  20AC 0081 201A 0083 201E 2026 2020 2021 0088 2030 008A 2039 008C 00A8 02C7 00B8
  0090 2018 2019 201C 201D 2022 2013 2014 0098 2122 009A 203A 009C 00AF 02DB 009F
  00A0 ---- 00A2 00A3 00A4 ---- 00A6 00A7 00D8 00A9 0156 00AB 00AC 00AD 00AE 00C6
  00B0 00B1 00B2 00B3 00B4 00B5 00B6 00B7 00F8 00B9 0157 00BB 00BC 00BD 00BE 00E6
  0104 012E 0100 0106 00C4 00C5 0118 0112 010C 00C9 0179 0116 0122 0136 012A 013B
  0160 0143 0145 00D3 014C 00D5 00D6 00D7 0172 0141 015A 016A 00DC 017B 017D 00DF
  0105 012F 0101 0107 00E4 00E5 0119 0113 010D 00E9 017A 0117 0123 0137 012B 013C
  0161 0144 0146 00F3 014D 00F5 00F6 00F7 0173 0142 015B 016B 00FC 017C 017E 02D9"⟩

def windows1258 : CodePage := ⟨"
  20AC 0081 201A 0192 201E 2026 2020 2021 02C6 2030 008A 2039 0152 008D 008E 008F
  0090 2018 2019 201C 201D 2022 2013 2014 02DC 2122 009A 203A 0153 009D 009E 0178
  00A0 00A1 00A2 00A3 00A4 00A5 00A6 00A7 00A8 00A9 00AA 00AB 00AC 00AD 00AE 00AF
  00B0 00B1 00B2 00B3 00B4 00B5 00B6 00B7 00B8 00B9 00BA 00BB 00BC 00BD 00BE 00BF
  00C0 00C1 00C2 0102 00C4 00C5 00C6 00C7 00C8 00C9 00CA 00CB 0300 00CD 00CE 00CF
  0110 00D1 0309 00D3 00D4 01A0 00D6 00D7 00D8 00D9 00DA 00DB 00DC 01AF 0303 00DF
  00E0 00E1 00E2 0103 00E4 00E5 00E6 00E7 00E8 00E9 00EA 00EB 0301 00ED 00EE 00EF
  0111 00F1 0323 00F3 00F4 01A1 00F6 00F7 00F8 00F9 00FA 00FB 00FC 01B0 20AB 00FF"⟩

end CodePage

end XmlInspect
