import Sitecheck.Text.CharMap

/-!
# Decompositions

What a character is made of, when differences of form are set aside, for the
characters that host names may use and that are no pairs; the classes of
combining marks, which decide their order; and the pairs that make up one
character.  Syllables of Hangul follow a rule of their own and are not listed.
-/

namespace Sitecheck.Text

def decompositions : CharMap := .ofNumerals
  "8vOGBhnBMKBhoH5XDBhxP1CEBezLvFJBjsN3I1ABjxX1A1ABjxL3eDDBhmDDGBh9BHDBhmREKBhmTKVBhgT1PFBhoBMDBhlP
   8PDBi9BGFBi8V4TGB15JKFB14PHGB14JGEB14H1iqVDB3q6FuREB34sR7K3QB3vfB5CGB352ZKFB352FHGB351ZRDB3mjJDG
   B3m6HHDB3mjXEKB3mjZNGB3meFIGB3meJIGB3meNIDB3meRPEB3dmN1m0H1AB73uZ1A1AB73uN1A1AB73yZ1AHB73yNISB
   73yNS1AB742Z1A1AB742N1NEB746ZFIB746ZIEB746NHEB746NILB746NL1AB74aZ1A1AB74aN1DEB74eZGIB74eZJHB74eZ
   I1AB74eN1DEB74iZFFB74iZKHB74iZI1AB74iN1A1AB74mZ1A1AB74mN1A1AB74qZ1A1AB74qN1A1AB74uZ1A1AB74uN1A1A
   B74yZ1A1AB74yN1A1AB752Z1A1AB752N1A1AB756Z1A1AB756N1ERB73iBSHB73iBIZB73hP1GRB73mNSHB73mNIZB73mB1G
   RB73qZSHB73qZIZB73qN1GRB73vLSHB73vLIZB73uZ1GRB73zXSHB73zXIZB73zL1KKB75zFKKB75zZKKB760TKKB761NKKB
   762H"
  "6EBB2MIBCA1lGCBB5AFBC4Z1fYDCB1KCBBC1L1jGBBB1zCDBC1zBbLBCB1I4UCDD4TheW4NAADEAE4MCC1ShhR2M2MMCC2F
   5Y2MAJBC19O5P2CBB18Z2RDD3P1X1fEA2MA2MAABGC1V3RA2M2MA2H2LA2M2MA1LDC3F1FA2M2MA7HJBI13G13BQ13YEM14D
   E1GGC6V1eGACAGA2IA2VAQDFB18O12ROK15Q3OCB8GCCBB1KBBCV1J1WBB6BGBC1fDaUEBB2CGBC2B1iQDBBbQ2VDB1mSM1L
   DCB2OL1ADBLOCCCB3F2GfMBCxGzM9EECeYiQ2OA9UA9PAsIIC1jA1iUCACAKAKACASAIA4VCC8U9WCACBC1AA3GBCaC9WDBC
   MA1JDC2PACAKADBC1EA9UCCiYjSCArYBC1qK1mI4YBC9W9W1PCC2P1XAQ1VBB7K2DBC4GdGKBCUAFBCKAFBCKAFBCKANBC2B
   DKBC3U5DCCCAE5AYBBDA1DABBCC1EBBDA1DAIBC5B1ESBC2O4GKBCUAFBCKAFBCKAFBCKANBC2BD42NBC8aZ73H8HBC1tG5E
   CBCIACBCEACBCEACBCMACBCMACBCIA2KBC4HACBC1vT1KBBB1yWBCC1yVcTA3QJBC1wC4ZCBCEAIBD2QOAIBC2LNIBD3KOAI
   BC2LNDBD1xHOABBB4YKBC1rY1fUCBCUACCC1xPAA1MCLBAAAAAAAAAAAHBBhgYGBChgXfsJNBB1CBBCAABBDAAAJBB1BEBC
   hjOhjOBBDAAACBCGGBBDAAAFBChjRhjRCBCB1kYJDC2K1iPA2H2H2IOBEhjMhhEhhEhhEIBBhjNRCB1G4KJGB4TijQiiF1PC
   5ILFB5DijQiiF1PC1ABC3E5S3KCD1E5F1FAA1GBBB2HBBC8KACCD5X1N3KAAMBBBnECBChFpJBKB5P2JAA2MeShBAG2MCBB
   2HBBCA2OGCBIADBCCJBBDCPBBBCAQCBBMCBB1tECBB1tDCBB1DBBCT1iCBCBCCCDB2Q2LCCCBO2QFBBLEEB1sU2L1AgnMFFB
   ihP2MCICKMD4JhfG4FCAABAECAACAACAAFACIAAHAEEAAEAAEAABBCLABBB1WBBCAABBDAAABBCA1ABBB1ABBCAZBBDAAABB
   EAAAABBCZ1EBBB1EBBCA1DBBDAAABFBXRCS2EBBCAABBDAAABBCA1ABBB1ABBCAZBBDAAABBEAAAABBCZ1EBBB1EBBCA1DBB
   DAAABEBXRCS6RBCigMigMBBDAAACBCGGBBDAAA9PCB7kUCcHLCq6Dq6FACACACACACACACACACCRBJDTCNACAACAACAACAAC
   AACAACAACABLEAPOAAACAAACAAACAAACAAACAAACAAACAAACAAACAACRABJCSHCACACACACACACACAB1LDPEAACAACAACAAC
   AACAACAACAACAACACRAT3UJACAACAACAACAACAACAACAACAACAACAACAACAACAACAACAACAACAACAACAACAACAACAACAACAA
   CA2BBBQ1eOBEilEilEilEilE4ABDikJikJikDBBCGGBBDAAA3YBCnbK1mS11BBBziU3GBBscMN8GB18nH3C1CS2A3KO1O2A
   1dQ2YM1U1O1Q4C1QWbY7G2EK2IS2C1A1Y4A1K2C1mE5OzK1UQW1K5W10S3S9G1U1M1S4EGrWUY1A8YQK9AU1AQ4S1I1K6E
   18S3O1Q1kYK6K1G1A1Q3AKkO1W2M26E5C1U4M1WSO4AK2M2bAyKYKIQ1KE6GgQKqCU3WOSQ7AOhOO3U1I3QiGO1IpE9SMeA
   6S3OtCaG18E2C4K3Y5GWM2O5WUqQOSS1G1EI6CIM23M2I10CY1UlU1A5M3O17Q1E1E2S2WfIY5EjC2KgC1QKgYeE9QMK1zWS
   cAbWG3Q8C1AIO7O2QM1CcW3YIeCG1MjK3SO5KUGU2IuKuUU2Y1SQUI3CI1IK1A2C1EQ4O1EI1RBB2f8X2CBBq8ECDBj8WGC
   3TCC19hHiyTACDBCqhG1F3SBC3I4U1YGBhcFCdAcXdCCKBBbHEBBO1GUB4W5VCdSCIEKIEeNeWEeXCEECIEGHBSIUOKcSCEI
   B8LCGSCEUGEOBx0WaUaB4tS4tP2S2PlfAl8Z4X1V63S12V4mP3TOD16zFxrN16zDAEAACAAEAACAACAAEAAEAACAAEAACAAC
   AACAACABPEA1J9fCAAEAAACAAAEAAACAAACAAAEAAAEAAACAAAEAAACAAACAAACAAACAAAL1AAE1KDAxcI9gBAaUAAaBAA
   4tSAA4iZAA1kCAA1vFAA1vCAA1oDAA2oIAAatMAA54WAA2aZAA2rJAAncCAAw3VAA82YAA18SAAmFAA9yOAAkcJAAgnCAA
   ebCAAajJAAl5HAA23DAA32GAA3sEAAf1IAAltJAAxsMAAvfHAAkuGAAn6DAArtIAASAOPCU1yzFACACACACACACACACCRACA
   CACACACBDB96WECEDBMECGOCX6OEACAEACACAEAEACAEACACACACAF1XBxbWaUaB4tS4iZ1kC1vF1vC1oD2oIatM54W2aZ
   2rJncCw3V82Y18SmF9yOkcJgnCebCajJl5HleU2jDf6Tu2IylL18UdxOnlA13wP1dWe3Wg1X2S2P8oG5fXeD4kQ3Tf1IltJ
   xsMvfH35WBYC1cmV1cmPACACACCRACACACACACACACACACCRH1k9GCACACACACACACACABDDP1k9FAACAACAFUBqhYEEEECE
   EEEEEEEEEEGEEHEBUGGGGCBSEMBF5F1T5V1S2HBBEA2E4O6ZBBFAQGNCBBDAS1MBBFE3TQ4P6HBCDA3C3VE5R3WBBGE1G5FS
   3H6XBBEA5EHABDDER1CAS3AC6TUBHEA5I2Z2PAI3A4AA6LGRAAM1PEA5N5HAA2M7QA5W2KABBGA5VC4R7PABBCA6MBCGAA4T
   6LHZAA3W7Q2NWBBFAA1C4JABBEE6LL2GBCGAAAA1V1MA6I3N5L2TLBBEAE5A4ABCDE1E5DE1H1IBCEA1I1I3RE6T3J6GBCFA
   6C1K1IVER3W5X5LBCDIS3VAAOBBEI6X4A1DBCDOA5HEA4ABCCA6YE2VBCDIVLC2JHBBGAT4IR3QIBBEAAASBBFABA3C3ABBG
   GC6X3X2RABBEAA1A3WBCDAAIAB4IBBGGQD3B2R6HBBEAE1MKBBGAT4J1H2N2SBBDA6E3SBBFG4L3ZSPBBDA1PDBBEAA1C1QB
   BDA6GNBBEA6F3QVBBFAASD2LBBEABAQBBFGC6T4ASBBEAB5M3HBBCA6YBBFA6VA3H6XBCDA7OPAAQBBEG6T5FLBDDAA4QA2K
   2DA3C2LBBFAQQ4I5GBBEC5F4EYBBCA4OBBGAA2B6F1KCBBDE4V4DBBFAAA3Q6YBCEA6G3Q2SGAA6HBCDAA2SE6XQBBEI2O3H
   PBBCA2YBBEC1T6B1MBBFA3G4O7P1HBBCC2DBBGA1M1V3P5L1MBBDG3RABKCqnXyzOCACACACACACACACACABQDP1pkBAACAA
   CAACAACAACAACAACAACAACACRAACAACAACAACA4E2E1pgHBCCH1I2RXBBD2OY2GBCC1AVC1AFEC1ffI1hfM48E7eD74LchU
   72CqMBBE15O7hFg7L6uKBIC1kqP1fuXDA1tCA1tDADA2LCEALABBD2E2K3GBBEQEVABHCK2FDA1tCAA2O1tDADA2R1MBED2S
   3VA2HAALAA1AAABKC1vC2U1tDARAOAJCQA1tCA1tDATAQABCDEA4NTAABBCU4NBDDD4OAEACTAABBCU4LBCDD4MAEieU4YBB
   EAAA4ZBBC2FifRBED2C1HA2HAALAA3I1IGBBFAAAifM1EBBGAAAAA4ZBSCD1KDA1tCA1tDAG2FDA1tCA1tDADA2HA2SCDA
   1tCA1tDADA2HA2I1tK2HABBE1O1wN1rR1wNBDC2J5E2O1BACBBE2LifMOGBBDAieP4RBKC2O3L2F4G2O1V2L1H2O2I2H2RAE
   2M3ACNACBBDACNBCCASC1RBCDAOUAMABBC2F2ZBBE2M1Z2W1ZBBD2L2Q2LBECAE2S2M2LII1NDJC2X1jjACACACACACACACA
   CABWDP1jmVAACAACAACAACAACAACAACAACAACACRAACAACAACAACAACAACAACAACAACACRAACA1hvUaKB24mOkfBlsM13N
   geBhuJ34G15fAA12gFuwQwzF21Y4qYb6S4zK3oMtEoM45Ml3D1pA21S1nM8yK77M4nY159L2pMcvY3vQazGd3MzgDa6KbyY
   1ySl4FgzQ3fQmlX4jM3gO31SgbGzpN17EmS9sM3bI3yO2nI4zG3aO6Q45E52K2bM1eCkhBiS29I3dI8bY6aCarDrbX3dAg2E
   29C7pV3iEaxG5lAxzH1xS7hQ22KnU7qEkId6E10wRp0KpjH1Fm1W1zO3eCa4Q5zTm9H3xUi1Ox8R7hK2aCanE11QisJkqE
   mjZ8pK9mTgtM40HcyAmmR2iSgrI79O3hQgxFjoEj8H57VhgGh3T9pYl6J1hU7KcfKb5S30Y4lE3tQydRpQ2uG2zU3qW5lI
   50QflM2lI2aG4G15oNb1E2kKjnIqrN1pG8Q1fG5rM16I1sA2vM2aA1cW81U5lF64S1qCznXaU15KfcGd4E11Oo0BnC1xK4hM
   92E4sZk0B4fE2pCzY1aYapSeC64KdG9tC2lS6IgA13oRn1Ud5C2qUtgFa1L19W62E6G54E2eW49O2fS82A6aM88Sv6Vq2I
   110BbgM9G2wMqS2yWpW1oM2jMexS12sZ95YslS12gJ72Q97Ei6Uq1TxY3qK69Gj5E11eF11K4kE5aQoGqQ2bM3wK10Q58W
   53W1K4vQ2sE10zXf1EekBg8W1iU9iI94C34I18Yu3R3eEb0C3wB6OsM5dJ16JemSx5FspCqsP3X6wO2aGe8Gi8B9mO3iHm6C
   3sN7nU6zFndF7fH2gQDBB1fGCBB7pSDKBb9Ji7S1zK1cE2QO3GgaKejR1nACBB3gSCBB2oMDCB2vKfEEEB4cM1A3K2hOD2HB
   16oLoC7WtG2C8K19G8C7O10I8A21OU29SgI2Y7S1uGbIdM12M2pKcOkI19GeO12S2fIdIWBQMO3SCdS5AoO17K1Q4InMbI
   11OaUA10U2lAaIrY4IvO4C1gUaA3nIlW4Q5UDC2b1X2b1XAGAGBCDALFAAGBCC1A1CAANFC2qO2qQA1HAMUWTRGBC7U5MCBC
   1YGBEB1F1JGCEDB1OE35DBCC35C32AACBCDALBAACBJC1XJACAICACACACACACACFCEACACACACACBCEACCCEACACCCEACAC
   KCEACACACACA1PFHMUASA1N2GB3GBcKAUAAAGAAAEAAALAAAKAAALAAA3IAAAEAAA2PAAABAAAGAAACAAAMABAEALA1GANA
   1WAAAMAAAIAAADAAASACAAABCC2A7XAABKB1NAAAFAAA1OABCCA9RAA1IKB2VAAA2AABAEABBCB6LBMBIALAIAOAAAaJABSD
   CW2PAAAAAdKAAAAAaVAAAAA9UAAAAABAAAAAEAAAAAQAAAAAAAAaJAAAAAABEBaAAAABFD9Z9FcHAACAA1WAAIAACB3LC2P
   3BACACA1UAIACE2HACACA1UAIACC2HA1YAIACC2FA1WC1XA1YC1XACA1WK1XACACA1UE1VA1WC1XACACA1UC1VA1WCAC1XA
   1YC1XA1YO1XACACA1UAIACC2FA1WAIACC2RAKACACA1SACAIACC2HACACA1UAIACC2HACACA1UAIACC2HACACA1UAIACC2HA
   1YAIACG2HACACA1UAIAC1Z2YCA1WABMD3dH2T2JACAACAACAACAAC2K3dKG4VAACAA1MAACAAGAACB1TC2P2RACA1MACAGAC
   E1XACA1MACAGACC1XACA1MACAGAC1SBACCBACC2RA2GACAIACCJAIACC2RA2IC1NACA1MACAGACG2YC4VACA1MACAGACBFDA
   U2HAACAACAA1UAAEB2PC2P3BACACA1UAEE2BACACA1UAECDC1VA1WC1XA1YC1XA1YK1XACACA1UE1VACA1UC1XACACA1UC1V
   C1WC1XA1YC1XA1YO1XACACA1UC1VA1WC1XACACA1SACC1XACACA1UAEC2BACACA1UC1XACACA1UAEC2BA1YA3IG5FACACA1U
   AEBCDA1ADAAEBRC2P1DAEEDAECDAEQDAECDAE1EFACCAEAAEIDAEBDDTOUACAACAB2VCRNACEBACCBACNBACCBACNBACBBAC
   EBACOBACCBACD2HACACA1UA1NBAEACAC1WACEBACCBACNBACCBACNBACBBACEBACOBACCBACD2HACACA1UA1NBAEACADJACA
   CA1UBECAGDH1XACACCDACACG1UCA1HMAAT2MDG2JLAC1XAAAAA1YACAA1U1XAACAACEABAAACA2GAABM1V2FABCAA2EA1Y2D
   AAAAABAA1YAAAE1V1VAAAA1W1WB1VAAAAABKA1Y2DAAAAA1UAAAE1VIACHAAAC1U1VAAAAA1WAAKE1XJA1YAAAAAAICAHAAK
   AABO1THAAAC1U1VAA1WE1VAAAKAABAB2FAAAAE1YAAAA1U1VAAAC1VBAA1YAAKAB2FAA1WAE1XAA1YD2CDAD1TE1YDAA1YB
   1VAAAIABHAAAAAIA1YCAABIAHAAA2P1TKEDAAABAECAABA1UCAABEACA1VBA1WAO1TAEBCBAAEAA1CBAA1YAM1VAABAA1YAJ
   AAFAAI1VAH1W2FE1V1WV1WKUAAG1X2FBE2GBDJB1YAC1XAEA1V1ZC2GCBA1WAAH1YA1X1VA2C1WJT1XAH1YAD1TK1MDA1PCD
   1H1WaM1AAABHE2BAaXaRAB2D1R2I1R2GD1F1UX1SH1H1EBQ1IEG1E1HLDBBD1L1IKBBSAAA3dH2PJJD3dH1FJCD3dHB1RJHB
   BIRA3dH3bC2G2FAABBEKaM3aS1W2ABC3aJ3mHBQBhgEBhcHA4FC6IEq1ECJCNCFCJECq7LomLAAAAAABGB4WAA3Xq5Yq5TCT
   B1ABK2HhhEhgPC6IEq1ECq8DGICE1EEBCEB2K4HC2CFDC2L3bA3cQA3cPCCBCACCKCAC3cQA3cPC3cQA3cPC3cQA3cPC3cQA
   3cPC3cQABBB2JBMCM3WAAACAA2OAAA2NCAA2SBAAAAAAB4AB2RACAAACACAAACAAACAAACAAACAAACACACACACAAACAAACAA
   ACAAACAAACAAACAAACAAAOAAACAAACAAACAAACAAACAAACAAACACACAAABGDL2RSAAAAACAAAAACAAABCCAAAA3V1MBjaGC
   3jSUCXjGR6FEEEE4MEE2T4K6XEEEECEEEEEEEEEEEGEEHEBUGGGGCBSEHLBSI6XCh2X7JCdAcXdCCKBBbHEBBO1SDB90VCSB
   BCaT1aEBDBaIBhiMCBB2dQFCBcE3I1laECC6hvK6hwMCABFDAASAACAACAACAAC3JCC7MACABEDBASCAABACCAAsEBB72mFC
   CBECDBBGDCBGCVBB2CHCBOC2NCB3LC1ZCBBCNBB1AeHBB1sSIBBgnI1AHBJgkRGEYJBSBB3BIBBgnI1AHBJgkRGEYJBSBB3B
   IBBgnI1AHBJgkRGEYJBSBB3BIBBgnI1AHBJgkRGEYJBSBB3BIBBgnI1AHBJgkRGEYJB26tVkWB14qWJS6lvU6l9R6A1A5M9G
   2K6A1VffD72oY6n0BO1G1M6maW720VfoU2Y6mcU6mbZ1A1jZ1kQS8r6A8r1B1CfxVg2EW3KKg2Pg8UE2C1SWC1I3WQS1YUEA
   A6nyO684PfoD1Q6ofC6oeDM1QbS7V1G2M4M6M2A5E1G2OA1Q1KQ1EqEkXlAfF2S2fD3rYmD2Y1Y9ZcWB9M6qzS6quHK1E1OQ
   4Y6rkM5C6reX3QY6BaYjeL78nC6owD4EA6s9K6rzD1Q1EY6slI6skJO1qO1oJk1Hk6C1C6I3X6tsO6teN6teS6tbJF1I7UC
   kmJkoM3I1Q3KksV7fkC7fiBkwIGG1O8toY8tkX6vcWA6c7Jj2RAkzH7orEpsE7tfBSl2Tl6K3YU2QaMlhL2HllG6whG6wdH
   9YIED3O1O2U1BW3Q1OI2AW5C6M2S9O6xaM6xbX4Z8I2C7M6xgS6xbX7D2DmoVn3Q1Q2K2XmzXngO2G6yvG6ymBlIdLnmLnsA
   ntH2TceQGbpU7Re9Ix9VjaAIM4SV6zvC7nyHogC8ZfU3Y6zkQ6zjX8NiWovHoyW7M5MeQ6zmC6ziDpkVpqG70gM70cNppZ
   psI3M2CC716Ag5BgdM713B721S71sZ1C7VdM3C4K4D3C1E1A71lI71rNjI4WqxLr4QH71uA729VsS71sA3S71oX8W2BFrmV
   rqM3YL4E658Y64xF72fG728Np4RpfM1A2C73uM73qT1Q74cIhE74bV1IsxDszEsyFAtaS1Q1Q1O5ItdDtkC75oM75mL75tO
   75pR6i7Y6hvP771Q1UaU80zBYu1O77aCB3A2A77bTCA3Iu4Ju9Ku8J6E82rA789T4U4YukZ83pE78tN792M3I791J7Cv1F
   v7UUK7a4CnAA7ajTuzZ863U7aiFGviX86hI7adZvtZvvSJ2G7byA7bqJvxRw5K4O5EwbD890A2K88zN89aU7ceR7cmM7ckJ
   7UW7d7M5Q7d6B7dgI7dfB6lwW7j2HxaO6GxcPxhEl2V7z5K1CsiPS6l6RG7fW154VxzWL1Kq7Nq9CEU3E7f4M7f4N4I5K5S
   aPbW3G8QjZ9EE1G7f4UnUbN8drNyvWE2S7ilW7ifV7fwY8exTI8f7SmG8ftDzhYYWE4Y2NaI3JbQ6F5E2CvtTw0U2M104H
   10bQG7i8I7hzJO10gR10iW1a2Z8t8OeE8jrZS114C5YcCfQ7jhU7jbD1S6Y7C7k9G1t6R5qwB1D4A5raA5qsL7S7mxK2C
   7m8R7E2M7mnU7mmZlYcGC7BtI2E7nmW7muB15jV15nG7nkA8t0Z161Qv7TvfE7ouYgK8v9VQ16cM7pyY8w6T8whO7q6JA2I
   7qqG7qbZ16hT16nG9S2C4Q16rR8zhS7s4TnGeO17uZ2K180U7txM91xJ921QkKaC7u5Z18iV18nQKOUO2W7vrU"

/-- Rows of a gap to the next code point, a count of code points, and their class. -/
def markClasses (start : Nat) : List Nat → List (Nat × Nat × Nat)
  | gap :: count :: markClass :: rest =>
    (start + gap, count, markClass) :: markClasses (start + gap) rest
  | _ => []

def combiningClasses : List (Nat × Nat × Nat) := markClasses 0 <| CharSet.numerals
  "tOV8WVB8YBE8MEB8YBB8IBF8MFC7UCE8MEC7UCL8MLFBFE8MEI8WIB9GBB8WBD8MDD8WDC8MDD8WDE8MEB8WBB8YBC8MCB8W
   BB8ZBC9ACB8ZBC9ACB8ZBN8WbCF8WaKB8MBE8WEB8MBD8WDB8OBB8MBG8WGG8MGC8WCB8MBC8WCB8OBB8UBB8WBBKBBLBBMB
   BNBBOBBPBBQBBRBBSBCTCBUBBVBBWCBXCBYBBZCB8WBB8MCBS2VI8WIB1EBB1FBB1G1XB1BBB1CBB1DBB1EBB1FBB1GBB1HB
   B1IBC8WCC8MCF8WFB8MBC8WCB8MRB1J3YH8WJE8WEB8MBB8WDC8WDB8MBC8WCB8M1KB1K1FB8WBB8MBC8WCB8MBC8WCD8MDB
   8WBC8MCB8WBB8MBD8WDB8MBB8WBB8MBB8WBB8MBB8WBB8MBC8W6GH8WHB8MBB8WKB8MZE8WFJ8WKD8WEF8W1WD8M2LB8WBD
   8MDE8W1UF8WFF8MFO8WPB8MBC8WCB8MBC8WCB8MBD8WDD8MDB1BBB1CBB1DBD8WDB8MBC8WCC8MCF8W2NBHRBJEB8WBB8MBC
   8W4BBHRBJ1XB8W2KBHRBJ4HBHRBJ4HBHRBJ4YBJ4HBHRBJIB3GBB3N3YBHRBJ4GCJSBJ4VBJ4GC3ZCBJOE4D4IC4OCBJOE4S
   3CC8M1DB8MCB8MCB8I2EB4ZBB5ACB5CGE5AGB5ACC8WCBJCC8W2MB8M4JBHCCJ3GB8MrSD8W10PCJ1GBJ6CBJLB8W7WB8U5O
   B8OBB8WBB8M8MB8WBB8M2UBJVI8WKB8M1XF8WFG8MGC8WCB8MCC8MCC8WCC8MCF8WFB8MBE8W4BBHQBJ1NB8WBB8MBH8W2JC
   J2IBHMCJ2RBH5XD8WEBBBF8MFC8WCE8MEB8WCHBLB8MHB8WEC8W7SC8WCB8MBH8WHB8MBC8WCB9ABB8GBB8MBB7UB1L8W1LB
   8YBC8UCB8MBB8KBB8WBB8ZBB8MBB8WBB8MrTC8WCCBCE8WEDBDC8WGB8WECBCB8WBB8MBB8WBCBCE8MEB8W3aDD8W5OBJ3T
   1G8WmOB8KBB8UBB8YBB8OBC8Q4DCIw8GB8WFK8W1QC8W3EC8WaSBJ1MBJ5WBJ1CS8W2XD8M1OBJ3SBHNBJ9GB8WCC8WCB8MD
   C8WHC8WDB8W2BBJ9NBJlnTB1AtQH8WHH8MHC8W11NB8M8TB8M5UF8W1sXB8MCB8W1PB8WBBBBB8MFBJ6KB8WBB8MmCE8WfBC
   8W5ZC8MCD8WDB8MBB8WBE8M2BB8WBB8MBB8WBB8M7LBJ1QBJPBJ2GBJBBH2SD8W1ZCJ2MBH2ZBJKBH4DBJBBH6XBHBBJ3DCH
   SBJZH8WKF8W8CBJEBHYB8W3WBJBBH9SBJBBH4XBJ4PBJBBH4MBJaKBJBBH9ZCJGBH6BBJ3GBJTBJ3EBJgGBJ9ZBHCCJ3FBJ
   l5PFB2MH8W1aUCGkzABB5oPC8ICDBGB8SBF8INI8MKF8WFC8M1GE8W5WD8W3rIH8WIR8WTH8WIC8WDF8WaGH8WeSB8W2KE8W
   1mAH8M4MG8WGBH"

def combiningClass (c : Char) : Nat :=
  match combiningClasses.find? fun (first, count, _) => first ≤ c.toNat && c.toNat < first + count with
  | some (_, _, markClass) => markClass
  | none => 0

/-- The pairs of the code points that have rows. -/
def readPairs (text : String) : List ((Nat × Nat) × Nat) :=
  (CharMap.readRows 0 [0] (CharSet.numerals text)).filterMap fun
    | (whole, [first, second]) => some ((first, second), whole)
    | _ => none

def pairs : List ((Nat × Nat) × Nat) := readPairs
  "7KGC5A1nCACACACAKAECJCE2GE2ZACACAMIPACACAMCGCKJCFACACACAKDFCMPACACAMINDGCQBACACACAKAECJCE2GE2ZAC
   ACAMIPACACAMCGCKJCFACACACAKDFCMPACACAMINCRCAO4HH2MA2LE2MA2L2Q2MA2H2Z2MA2LC2MA2LK2MA2LK2MA2JA2MAD
   UC2JP2MA2LE2MA2LC2MA2L2O2MA2L2D2MA2HT2MA2LI2MA2LC2MA2L2M2MA2J2V2MADJC2JC2MA2LC2MA2LE2MA2L2Q2MA2L
   2NEECCJ2MA2J2W2MACGC2J2X2MA2L2Y2MA2L2B2MAFGC2HV2MA2L2Y2MA2L2B2MAEGC2JP2MA2LE2MA2LK2MADSC2FT2MA2L
   2Y2MA2L2B2MA2JV2MA2LC2MA2L2W2MA2L2B2MA2J2C2MA2L2B2MADXC2JR2MA2LC2MA2LE2MA2LI2MA2LC2MA2L2G2MA2H2X
   2MA2HA2MA2LMCN2MA2LM2MA2LK2MA1ICC3H1E2MAOCC1ZA2MA1DQC3Z1D2MA1VA2MA1ZA2MA1ZA2MA7YP2MA2LF2MA2LW2MA
   2LX2MACGC4HI2MAoUACArDA2MADLCcFQ2MA2DA2MA2D2E2MAtE2TCA3ZQgWA16LAECC2RV2MAD1KC1XB2MA6SC2MA2JA2MA
   1BA2MAeB1C2MA2LE2MA2DD2MA2LE2MA2DD2MA2LE2MA1ZD2MA2LE2MA2FD2MA2LE2MA2FD2MA2LE2MA2P1Q2MA2JA2MADCC
   3J1Z2MAHOC2ZJ2MA2D2M2MA8S2R2MA2NA2MAcTG2MAyKFCA10DA2MAdACC3QF1lIACDCIAEAEACBCMACDCMAIA2OA1AHC3TO
   YAYNIAEAEA1KA1AFC1JOYALNMAIAFCCSAAO1SCC5EPAQCBCDNEBCZOFDC1ONDBWMLBCVA1GBC2MAXCCFLAQCBCDNEBC2SOFD
   C2DNDBWMYCC3USCA2WCC7HR2MAOEC2XA2MA2LE2MADCC2BD2MADGCcOECAeZA2MA2JA2MADGC2JH2MA2LI2MA1ZA2MADMCdC
   ACAeLA2MA3FH2MA2LI2MA2LG2MA2DF2MADCC2DA2MAbLFC10Q1sWAC2OA2NC2SB5YBCaSACBC1NARBC1IAnABC1aA1lGIBCQ
   ADBCGA5VCCbKaAA1YeQBCtOtMDCCA1VA1Y2UBC5U9W2CDC4A1XCAB1Y4UBC9W9U4QBC9I9UHCCOAACCCCA1NI1M4XDC9O8CC
   AB1Y5MBCbI8WCDCAKGJF1QmMBC19G19M3sK5YC8oX74R2MA2J2H2MA2L2E2MA2L1C2MA7U3R2MAcNM2MA2L2E2MA2L1C2MA
   2LT2MA2LM2MAdK3LCABCCAfV3K2MA2LG2MAyS3FCA11DC2MA2JF2MA2JG2MA2L2E2MA2L2B2MA2L2K2MA2LO2MA2JE2MA7W
   3P2MAcPA2MA2L2Q2MA2L1C2MA2J1B2MAgaQ2JCAgdD3M2MA2LH2MA2J3J2MA2LM2MA2L2E2MA2J2D2MA2L2E2MA2L1C2MA2L
   H2MA7Y3J2MA2LO2MA6SPCABCCAjLA2MA2LM2MA2HA2MA2L2E2MAgcY2JCAgfL3M2MA2J3F2MA2L2E2MAhU2DCAKACAfvEACA
   gfXA2MA2L2E2MA2L1C2MA2LH2MA2JR2MA2LY2MA2LF2MAiS3JCACOCAlHJ2MA2L2M2MA2J2R2MA2LC2MA2LO2MA2LB2MA2L
   2E2MA2J2D2MA2LC2MA2JB2MA2JJ2MA2L2O2MA2L1C2MA1JAY3DGEEACBCkEFF3MCoL2E2MA2L1Z2MA7MP2MA2LB2MA2LS2MA
   2LL2MAg9SBCAg7HBCABBCABSCABLCAg7EGCAglV2G2MA2L1Z2MA2LL2MA7UD2MA2LB2MA2LS2MA2LL2MAgaYBCAgnJO2MA2L
   2A2MA1ZA2MA2L1Z2MA7UP2MA2LB2MA2LS2MA2LL2MAgbSBCAfyNBCABBCABSCABLCAB2MCApNA2MA2L1Z2MAoEPCABBCABSC
   ABLCAB2MCAqJ2R2MA2L2S2MA2L1Z2MA2LL2MAHWC1rK1GACexU1NCABCCAB5ACAf0H3PACf0W1NCABCCAB5ACAeyD3PACeyS
   1NCABCCADGCf1F1KACf1U1NCABCCAD1MCezF1KACezU1NCABCCAB5ACAf2H3PACf2W1NCABCCAB5ACAf0H3PACf0W1NCABCC
   AB5ACAf3J3PACf3Y1NCABCCAB5ACAf1B3PACf1Q1NCABCCADGCf4D1KACf4S1NCABCCADICf1V1KACf2K1NCABCCAB5ACACB
   Cf4X3NCBCf5O1NCBCACCSCA5Af2T3PACf3I1NCABCCAB5ACAf5V3PACf6K1NCABCCAB5ACAf5V5BCBCIACBCEACBCEACBCMA
   CBCMACBCIAE2BCevY5ICACACACACACACACACACACACACACACA1IACACACACACACACACACACACACACACACA3UACACACACACAC
   ACACACACACACACACACAf6H4VADf6K5Af6JAJACFCKFfbUGfeF4VADAHCBCA5IFEC1lHFguMGf6FARACDCSFfcOGffD5HCBCE
   ACHCA5IfeM5HACA5AfbV4PAD1IHEFC1H5C1IA3T4PADAHDGCfjEAACA5AffT4PADMHCHCT1MACI3OMA2X4PADAHCCCH1O1mN
   1NFDCgvC5If5LAKACDCJFfeWGfiB5HCBCUACBCA5IfYCCgcWZEATBCEA1FDC4QAIADA2BBC3UAFBCKADBCGAYBC1WACBCEA
   1BBC1UADBCOADBCEACBCGAXBCimJACBCioIALFC1NAimVAEAioMACADCC1AACADCCGACAHCCGACADCCOACADCCGACA1JEC2C
   AMACAEA1XEC3PACA1OACAHEC2MACACACA3nRBC7fOotQCBCEACBCEACBCEACBCEACBCEACBCEACBCEACBCEACBCEACBCEACB
   CEADBCGACBCEACBCEAHCCOAACCCCGBACCCCGBACCCCGBACCCCGBACXBC4BBKBC6SAOBC1CACBCEACBCEACBCEACBCEACBCEA
   CBCEACBCEACBCEACBCEACBCEACBCEADBCGACBCEACBCEAHCCOAACCCCGBACCCCGBACCCCGBACCCCGBACXBC4BBDEC5QACACA
   CAEBCWA"

/-- Pairs that make up a character which is not taken apart. -/
def laterPairs : List ((Nat × Nat) × Nat) := readPairs
  "7eCBCesCevUCBCEACBCEACBCEACBCEAEBCIA1PBC3EACBCEADCCEACACBCGA1v3RBC3q7I3qaWCBCEAPBCUA5BCCaU8KCAkU
   CC15A15EA1YeDCCsMrIATCBCA1A9SCCjQiQCAyJBC1wQ1xA"

end Sitecheck.Text
